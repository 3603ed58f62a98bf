import AtariTos.Calls.Console

namespace AtariTos

namespace Service

def consoleDevice : UInt16 := 2

def deviceInputStatus : Service UInt32 := do
  if (← argumentWord 2) = consoleDevice then inputStatus else return 0

def deviceRead (fault? : Option HostFault := none) : Service UInt32 := do
  if (← argumentWord 2) = consoleDevice then readCharacter fault? else return 0

def deviceWrite (fault? : Option HostFault := none) : Service UInt32 := do
  let device ← argumentWord 2
  let character ← argumentWord 4
  if device = consoleDevice then print [character.toUInt8] fault?
  return 0

def deviceOutputStatus : Service UInt32 :=
  return if (← argumentWord 2) = consoleDevice then ready else 0

/-- Answers an exception vector and puts another in its place, unless that is minus one. -/
def exceptionVector : Service UInt32 := do
  let number ← argumentWord 2
  let vector ← argumentLong 4
  let addr := 4 * number.toUInt32
  let (previous, memory) ← orStop ((← get).memory.read addr .long .supervisor)
  modify fun s => { s with memory }
  if vector ≠ 0xffffffff then
    let memory ← orStop (memory.write addr .long vector .supervisor)
    modify fun s => { s with memory }
  return previous

end Service

end AtariTos

import AtariTos.System

namespace AtariTos

namespace Service

def driveNumber : UInt32 := 2

/-- Size of the buffer for a current directory, the closing zero counted. -/
def directoryBufferLen : Nat := 128

def currentDrive : Service UInt32 :=
  return driveNumber

def createDirectory : Service UInt32 := do
  let path ← argumentPath 2
  match (← get).host.makeDirectory path with
  | .error _ => reject .accessDenied
  | .ok host =>
    setHost host
    return 0

def setDirectory : Service UInt32 := do
  let guest ← pathAt (← argumentLong 2)
  let s ← get
  match s.kernel.drive.changeDirectory s.host guest with
  | .error cause => reject cause.status
  | .ok drive =>
    setKernel fun kernel => { kernel with drive }
    return 0

/-- Stores the current directory with a closing zero. Drive 0 is the current one; otherwise drives
count from `A:` as one. -/
def currentDirectory : Service UInt32 := do
  let buffer ← argumentLong 2
  let drive ← argumentWord 6
  if drive ≠ 0 ∧ drive.toUInt32 ≠ driveNumber + 1 then reject .invalidDrive
  let text := (← get).kernel.drive.directoryText.toUTF8.toList ++ [0]
  if directoryBufferLen < text.length then reject .rangeError
  storeBuffer buffer text
  return 0

end Service

end AtariTos

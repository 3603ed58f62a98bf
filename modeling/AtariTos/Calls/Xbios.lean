import AtariTos.System

namespace AtariTos

namespace Service

/-- A screen resolution no machine has, so that programs do not draw. -/
def noResolution : UInt32 := 8

def screenResolution : Service UInt32 :=
  return noResolution

def resetKeyTables : Service UInt32 :=
  return 0

/-- Asks for the key tables. Installing others is not provided. -/
def keyTables : Service UInt32 := do
  let unshifted ← argumentLong 2
  let shifted ← argumentLong 6
  let capitals ← argumentLong 10
  if [unshifted, shifted, capitals].all (· = 0xffffffff) then return 0
  else
    let asked := s!"0x{hex 1 unshifted.toNat}, 0x{hex 1 shifted.toNat}, 0x{hex 1 capitals.toNat}"
    stop (.refused "Keytbl" s!"installing key tables ({asked})")

/-- Enters a routine in supervisor mode. It returns to the trampoline; above that return address
lies the one of the caller, who waits until the routine is done. -/
def callSupervisor : Service UInt32 := do
  let routine ← argumentLong 2
  let caller := (← get).registers
  setRegisters (·.enterMode .supervisor)
  let sp := (← get).registers.sp - 8
  let memory ← orStop ((← get).memory.write (sp + 4) .long caller.pc .supervisor)
  modify fun s => { s with memory }
  let memory ← orStop (memory.write sp .long MemoryMap.trampoline.base .supervisor)
  modify fun s => { s with memory }
  setRegisters (·.setAll [(.sp, sp), (.pc, routine)])
  setKernel fun kernel =>
    { kernel with
      suspended := ⟨preservedRegisters.map caller.get, caller.privilege⟩ :: kernel.suspended }
  return 0

end Service

end AtariTos

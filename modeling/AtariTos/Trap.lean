import AtariTos.Calls.Catalogue

namespace AtariTos

inductive AfterTrap where
  | proceed
  | ended (code : Int32)
deriving DecidableEq, Repr

namespace Trap

def gemdosVector : UInt8 := 0x21

def gemVector : UInt8 := 0x22

def biosVector : UInt8 := 0x2d

def xbiosVector : UInt8 := 0x2e

def calls (vector : UInt8) : Except StopCause (CallTable Routine) :=
  if vector = gemdosVector then .ok Catalogue.gemdos
  else if vector = biosVector then .ok Catalogue.bios
  else if vector = xbiosVector then .ok Catalogue.xbios
  else if vector = gemVector then .error (.foreignTrap vector "AES/VDI")
  else .error (.foreignTrap vector "unassigned")

def routine (s : System) (vector : UInt8) : Except StopCause Routine := do
  let table ← calls vector
  let code ← (Arguments.ofRegisters s.memory s.registers).selector.mapError .fault
  table.handler code

def answer (s : System) (value : UInt32) : System :=
  { s with registers := s.registers.set .answer value }

def complete (called : Routine) (s : System) (fault? : Option HostFault := none) :
    Except StopCause AfterTrap × System :=
  match (called.run fault?).run s with
  | .ok (.value result) after => (.ok .proceed, answer after result)
  | .ok (.ending code) after => (.ok (.ended code), answer after 0)
  | .error (.status status) after => (.ok .proceed, answer after status.register)
  | .error (.stop cause) after => (.error cause, after)

def serve (vector : UInt8) (s : System) (fault? : Option HostFault := none) :
    Except StopCause AfterTrap × System :=
  match routine s vector with
  | .error cause => (.error cause, s)
  | .ok called => complete called s fault?

end Trap

end AtariTos

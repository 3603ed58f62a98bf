import AtariTos.Memory.Rights

namespace AtariTos

inductive Register where
  | data (n : Fin 8)
  | address (n : Fin 8)
  | pc
  | sr
  | usp
  | ssp
deriving DecidableEq, Repr

namespace Register

def answer : Register := data 0

def sp : Register := address 7

def name : Register → String
  | data n => s!"D{n.val}"
  | address n => s!"A{n.val}"
  | pc => "PC"
  | sr => "SR"
  | usp => "USP"
  | ssp => "SSP"

def all : List Register :=
  (List.finRange 8).map data ++ (List.finRange 8).map address ++ [pc, sr, usp, ssp]

end Register

/-- Registers that keep their values over a routine called in supervisor mode. -/
def preservedRegisters : Vector Register 9 :=
  #v[.data 3, .data 4, .data 5, .data 6, .data 7, .address 3, .address 4, .address 5, .address 6]

structure Registers where
  data : Vector UInt32 8 := Vector.replicate 8 0
  address : Vector UInt32 8 := Vector.replicate 8 0
  pc : UInt32 := 0
  sr : UInt32 := 0
  /-- The stack pointer of the privilege level that is not active. -/
  inactiveSp : UInt32 := 0
deriving DecidableEq

namespace Registers

def zero : Registers := {}

def privilege (r : Registers) : Privilege :=
  Privilege.ofStatus r.sr

def sp (r : Registers) : UInt32 :=
  r.address[7]

/-- Stores a status word; a change of privilege exchanges the stack pointers. -/
def setStatus (r : Registers) (value : UInt32) : Registers :=
  let sr := value &&& 0xffff
  if Privilege.ofStatus sr = r.privilege then { r with sr }
  else { r with sr, address := r.address.set 7 r.inactiveSp, inactiveSp := r.sp }

def isActive (r : Registers) (mode : Privilege) : Bool :=
  r.privilege = mode

def stackPointer (r : Registers) (mode : Privilege) : UInt32 :=
  if r.isActive mode then r.sp else r.inactiveSp

def setStackPointer (r : Registers) (mode : Privilege) (value : UInt32) : Registers :=
  if r.isActive mode then { r with address := r.address.set 7 value }
  else { r with inactiveSp := value }

def get (r : Registers) : Register → UInt32
  | .data n => r.data[n]
  | .address n => r.address[n]
  | .pc => r.pc
  | .sr => r.sr
  | .usp => r.stackPointer .user
  | .ssp => r.stackPointer .supervisor

def set (r : Registers) (register : Register) (value : UInt32) : Registers :=
  match register with
  | .data n => { r with data := r.data.set n value }
  | .address n => { r with address := r.address.set n value }
  | .pc => { r with pc := value }
  | .sr => r.setStatus value
  | .usp => r.setStackPointer .user value
  | .ssp => r.setStackPointer .supervisor value

def setAll (r : Registers) (values : List (Register × UInt32)) : Registers :=
  values.foldl (fun r (register, value) => r.set register value) r

def enterMode (r : Registers) (mode : Privilege) : Registers :=
  match mode with
  | .supervisor => r.setStatus (r.sr ||| Privilege.statusBit)
  | .user => r.setStatus (r.sr &&& ~~~Privilege.statusBit)

end Registers

end AtariTos

namespace AtariTos

/-- A device with its state, a list of numbers whose meaning is the device's own. -/
structure Device where
  name : String
  state : List Nat := []
  onRead : List Nat → UInt32 → UInt8 × List Nat
  onWrite : List Nat → UInt32 → UInt8 → List Nat
  onPeek : List Nat → UInt32 → UInt8

namespace Device

def readByte (d : Device) (offset : Nat) : UInt8 × Device :=
  let (value, state) := d.onRead d.state offset.toUInt32
  (value, { d with state })

def writeByte (d : Device) (offset : Nat) (value : UInt8) : Device :=
  { d with state := d.onWrite d.state offset.toUInt32 value }

def peekByte (d : Device) (offset : Nat) : UInt8 :=
  d.onPeek d.state offset.toUInt32

def load (d : Device) (offset : Nat) : Nat → List UInt8 × Device
  | 0 => ([], d)
  | count + 1 =>
    let (value, next) := d.readByte offset
    let (rest, last) := load next (offset + 1) count
    (value :: rest, last)

def store (d : Device) (offset : Nat) : List UInt8 → Device
  | [] => d
  | value :: rest => store (d.writeByte offset value) (offset + 1) rest

def peek (d : Device) (offset count : Nat) : List UInt8 :=
  (List.range count).map fun i => d.peekByte (offset + i)

/-- The instruction that does nothing, byte by byte. -/
def nopByte (offset : UInt32) : UInt8 :=
  if offset % 2 = 0 then 0x4e else 0x71

/-- An endless run of instructions that do nothing, which cannot be changed. -/
def trampoline : Device where
  name := "Trampoline"
  onRead state offset := (nopByte offset, state)
  onWrite state _ _ := state
  onPeek _ offset := nopByte offset

end Device

end AtariTos

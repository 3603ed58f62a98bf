import AtariTos.Bytes
import AtariTos.Text.Hex

namespace AtariTos

/-- A branch over the header, with which every executable starts. -/
def executableMagic : UInt16 := 0x601a

def headerLen : Nat := 28

inductive HeaderDefect where
  | short (len : Nat)
  | wrongMark (magic : UInt16)
deriving DecidableEq, Repr

namespace HeaderDefect

def message : HeaderDefect → String
  | short len =>
    s!"executable is {len} bytes, shorter than the {headerLen}-byte header"
  | wrongMark magic =>
    s!"bad magic word 0x{hex 4 magic.toNat} (expected 0x{hex 4 executableMagic.toNat})"

end HeaderDefect

structure Header where
  magic : UInt16
  text : UInt32
  data : UInt32
  bss : UInt32
  symbols : UInt32
  reserved : UInt32
  flags : UInt32
  absolute : UInt16
deriving DecidableEq, Repr

namespace Header

def parse (file : Bytes) : Except HeaderDefect Header :=
  let word (offset : Nat) : UInt16 := (Bytes.word? file offset).getD 0
  let long (offset : Nat) : UInt32 := (Bytes.long? file offset).getD 0
  if file.size < headerLen then .error (.short file.size)
  else if word 0 ≠ executableMagic then .error (.wrongMark (word 0))
  else .ok ⟨word 0, long 2, long 6, long 10, long 14, long 18, long 22, word 26⟩

/-- Bytes of text and data, which come from the file. -/
def loadLength (h : Header) : Nat :=
  h.text.toNat + h.data.toNat

/-- Bytes the program occupies, bss included. -/
def imageLength (h : Header) : Nat :=
  h.loadLength + h.bss.toNat

/-- Where the relocation table starts in the file, after text, data and symbols. -/
def tableStart (h : Header) : Nat :=
  headerLen + h.loadLength + h.symbols.toNat

def hasFixups (h : Header) : Bool :=
  h.absolute = 0

end Header

end AtariTos

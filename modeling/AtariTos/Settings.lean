import AtariTos.Program.MemoryMap
import AtariTos.Text.Classes
import AtariTos.Text.Utf8

namespace AtariTos

structure Settings where
  basePath : Option (List UInt8) := none
  trace : Bool := false
  ramTop : UInt32 := MemoryMap.cartridge
deriving DecidableEq, Repr

namespace Settings

def trim (text : List Char) : List Char :=
  ((text.dropWhile isBlank).reverse.dropWhile isBlank).reverse

/-- Anything but nothing and zero switches a flag on. -/
def isOn (text : String) : Bool :=
  let trimmed := trim text.toList
  !(trimmed = [] || trimmed = ['0'])

/-- The value of a flag in the environment. One that is not text is off. -/
def flag (value : Option (List UInt8)) : Bool :=
  match value.bind Utf8.decode? with
  | some text => isOn text
  | none => false

def ofEnvironment (basePath trace : Option (List UInt8)) : Settings :=
  { basePath, trace := flag trace }

end Settings

end AtariTos

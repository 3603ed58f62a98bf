import AtariTos.System

namespace AtariTos

namespace Service

def printMax : Nat := 0x8000

/-- The answer of a status call when a character can be read or written. -/
def ready : UInt32 := 0xffffffff

def endOfInput : UInt32 := 0xff

def readCharacter (fault? : Option HostFault := none) : Service UInt32 := do
  let byte ← exchange ((← get).console.takeByte fault?)
  return (byte.map (·.toUInt32)).getD endOfInput

def print (data : List UInt8) (fault? : Option HostFault := none) : Service Unit := do
  exchange ((← get).console.put data fault?)

def inputStatus : Service UInt32 :=
  return if (← get).console.isReady then ready else 0

def writeCharacter (fault? : Option HostFault := none) : Service UInt32 := do
  print [(← argumentWord 2).toUInt8] fault?
  return 0

/-- Prints a character, or reads one without waiting if the argument is `0xff`. -/
def rawInputOutput (fault? : Option HostFault := none) : Service UInt32 := do
  let word ← argumentWord 2
  if word ≠ 0xff then
    print [word.toUInt8] fault?
    return 0
  else if (← get).console.isReady then readCharacter fault?
  else return 0

def printString (fault? : Option HostFault := none) : Service UInt32 := do
  match ← stringAt (← argumentLong 2) printMax with
  | none => reject .rangeError
  | some text =>
    print text fault?
    return text.length.toUInt32

def trimLine (line : List UInt8) : List UInt8 :=
  let endsLine (byte : UInt8) := byte = Console.newline || byte = Console.carriageReturn
  (line.reverse.dropWhile endsLine).reverse

/-- Reads a line into a buffer: its capacity, the length of the line, and the line. -/
def readString (fault? : Option HostFault := none) : Service UInt32 := do
  let addr ← argumentLong 2
  let capacity := ((← loadBuffer addr 1).headD 0).toNat
  requireWritable (addr + 1) (capacity + 1)
  let line ← exchange ((← get).console.takeLine capacity fault?)
  let text := trimLine line
  storeBuffer (addr + 1) (text.length.toUInt8 :: text)
  return 0

end Service

end AtariTos

import AtariTos.Memory.Access
import AtariTos.Processor.Registers

namespace AtariTos

structure Arguments where
  memory : GuestMemory
  sp : UInt32
  mode : Privilege

namespace Arguments

def ofRegisters (memory : GuestMemory) (r : Registers) : Arguments :=
  ⟨memory, r.sp, r.privilege⟩

def fetch (args : Arguments) (offset : UInt32) (width : Width) : Except Fault UInt32 :=
  args.memory.peek (args.sp + offset) width args.mode

def byte (args : Arguments) (offset : UInt32) : Except Fault UInt8 :=
  (args.fetch offset .byte).map (·.toUInt8)

def word (args : Arguments) (offset : UInt32) : Except Fault UInt16 :=
  (args.fetch offset .word).map (·.toUInt16)

def signedWord (args : Arguments) (offset : UInt32) : Except Fault Int16 :=
  (args.word offset).map (·.toInt16)

def long (args : Arguments) (offset : UInt32) : Except Fault UInt32 :=
  args.fetch offset .long

def signedLong (args : Arguments) (offset : UInt32) : Except Fault Int32 :=
  (args.long offset).map (·.toInt32)

def selector (args : Arguments) : Except Fault UInt16 :=
  args.word 0

end Arguments

inductive Argument where
  | word (value : UInt16)
  | long (value : UInt32)
deriving DecidableEq, Repr

namespace Argument

def encode : Argument → List UInt8
  | word value => bytesOfWord value
  | long value => bytesOfLong value

end Argument

structure CallFrame where
  code : UInt16
  args : List Argument := []
deriving DecidableEq, Repr

namespace CallFrame

def encode (frame : CallFrame) : List UInt8 :=
  bytesOfWord frame.code ++ frame.args.flatMap Argument.encode

def size (frame : CallFrame) : UInt32 :=
  frame.encode.length.toUInt32

/-- Stores a frame below the stack pointer and moves the stack pointer down to it. -/
def push (frame : CallFrame) (r : Registers) (memory : GuestMemory) :
    Except Fault (Registers × GuestMemory) :=
  let sp := r.sp - frame.size
  (memory.store sp frame.encode r.privilege).map fun written => (r.set .sp sp, written)

end CallFrame

end AtariTos

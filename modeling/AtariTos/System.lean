import AtariTos.Console
import AtariTos.Drive
import AtariTos.Handles
import AtariTos.Heap
import AtariTos.Processor.Arguments
import AtariTos.Stop

namespace AtariTos

/-- A caller that waits for a routine in supervisor mode to return. -/
structure Suspension where
  saved : Vector UInt32 9
  mode : Privilege
deriving DecidableEq

structure Kernel where
  heap : Heap := {}
  dta : UInt32 := MemoryMap.transferArea
  handles : Handles := {}
  drive : Drive
  /-- Waiting callers, the latest first. -/
  suspended : List Suspension := []
deriving DecidableEq

namespace Kernel

/-- Forgets the process before and gives its successor a heap. -/
def forgetProcess (kernel : Kernel) (span : HeapSpan) : Kernel :=
  { kernel with
    heap := Heap.ofSpan span
    dta := MemoryMap.transferArea
    handles := kernel.handles.closeFiles
    suspended := [] }

end Kernel

structure System where
  registers : Registers := {}
  memory : GuestMemory := {}
  kernel : Kernel
  console : Console := {}
  host : HostTree := {}

/-- How a service fails: the program is told a status, or emulation stops. -/
inductive Failure where
  | status (status : Status)
  | stop (cause : StopCause)
deriving DecidableEq, Repr

/-- What a service has changed before it fails stays changed. -/
abbrev Service := EStateM Failure System

namespace Service

def reject {α : Type} (status : Status) : Service α :=
  throw (.status status)

def stop {α : Type} (cause : StopCause) : Service α :=
  throw (.stop cause)

def orStop {α : Type} : Except Fault α → Service α
  | .ok value => pure value
  | .error fault => stop (.fault fault)

/-- A fault in a buffer named by the program is the program's own mistake. -/
def orRangeError {α : Type} : Except Fault α → Service α
  | .ok value => pure value
  | .error _ => reject .rangeError

def callerMode : Service Privilege :=
  return (← get).registers.privilege

def arguments : Service Arguments :=
  return Arguments.ofRegisters (← get).memory (← get).registers

def argumentWord (offset : UInt32) : Service UInt16 := do
  orStop ((← arguments).word offset)

def argumentHandle (offset : UInt32) : Service Int16 := do
  orStop ((← arguments).signedWord offset)

def argumentLong (offset : UInt32) : Service UInt32 := do
  orStop ((← arguments).long offset)

def setRegisters (change : Registers → Registers) : Service Unit :=
  modify fun s => { s with registers := change s.registers }

def setKernel (change : Kernel → Kernel) : Service Unit :=
  modify fun s => { s with kernel := change s.kernel }

def setConsole (console : Console) : Service Unit :=
  modify fun s => { s with console }

/-- Takes over what a transfer leaves of the console, also when the host breaks it off. -/
def exchange {α : Type} (transfer : Except HostError α × Console) : Service α := do
  setConsole transfer.2
  match transfer.1 with
  | .ok value => return value
  | .error _ => reject .internalError

def setHost (host : HostTree) : Service Unit :=
  modify fun s => { s with host }

/-- Some area holds all of a buffer and lets the caller write to it. An empty buffer may lie
anywhere. -/
def isWritable (s : System) (addr : UInt32) (len : Nat) : Bool :=
  len = 0 ||
    match s.memory.find? addr with
    | none => false
    | some area => area.covers addr len && area.rights.mayWrite s.registers.privilege

/-- Fails unless the caller may write to a buffer, before anything is fetched to fill it. -/
def requireWritable (addr : UInt32) (len : Nat) : Service Unit := do
  if isWritable (← get) addr len then pure () else reject .rangeError

def setMemory (memory : GuestMemory) : Service Unit :=
  modify fun s => { s with memory }

def loadBuffer (addr : UInt32) (len : Nat) : Service (List UInt8) := do
  let (data, memory) := (← get).memory.tryLoad addr len (← callerMode)
  setMemory memory
  orRangeError data

def storeBuffer (addr : UInt32) (data : List UInt8) : Service Unit := do
  let (stored, memory) := (← get).memory.tryStore addr data (← callerMode)
  setMemory memory
  orRangeError stored

def stringAt (addr : UInt32) (limit : Nat) : Service (Option (List UInt8)) := do
  orRangeError ((← get).memory.peekString addr limit (← callerMode))

def pathAt (addr : UInt32) : Service (List UInt8) := do
  match ← stringAt addr pathMax with
  | some path => return path
  | none => reject .pathOverflow

def argumentPath (offset : UInt32) : Service HostPath := do
  let guest ← pathAt (← argumentLong offset)
  let s ← get
  match s.kernel.drive.translate s.host guest with
  | .ok path => return path
  | .error cause => reject cause.status

end Service

end AtariTos

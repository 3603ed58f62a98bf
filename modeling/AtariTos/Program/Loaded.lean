import AtariTos.Memory.Access
import AtariTos.Processor.Registers
import AtariTos.Program.Basepage
import AtariTos.Program.Fixups
import AtariTos.Program.Header
import AtariTos.Program.MemoryMap

namespace AtariTos

inductive LoadFailure where
  | badHeader (cause : HeaderDefect)
  | incomplete (expected actual : Nat)
  | noRoom (needed : Nat) (available : UInt32)
  | fixupOutside (offset : Nat)
  | fault (cause : Fault)
deriving DecidableEq, Repr

namespace LoadFailure

def message : LoadFailure → String
  | badHeader cause => s!"invalid executable: {cause.message}"
  | incomplete expected actual =>
    s!"executable truncated: header declares 0x{hex 1 expected} bytes of text+data, " ++
      s!"file has 0x{hex 1 actual}"
  | noRoom needed available =>
    s!"program needs 0x{hex 1 needed} bytes but only 0x{hex 1 available.toNat} are available"
  | fixupOutside offset => s!"relocation at offset 0x{hex 1 offset} is outside the program"
  | fault cause => cause.message

end LoadFailure

structure LoadedProgram where
  header : Header
  basepage : Basepage
  heap : HeapSpan
  /-- The end of user memory, from which the user stack grows down. -/
  ramTop : UInt32
  fixups : Nat
deriving DecidableEq

namespace LoadedProgram

def entry (program : LoadedProgram) : UInt32 :=
  program.basepage.textBase

/-- The initial user stack pointer, below a return address and the address of the basepage. -/
def stackStart (program : LoadedProgram) : UInt32 :=
  program.ramTop - 8

def segments (file : Bytes) (header : Header) : Except LoadFailure (Bytes × Nat) :=
  let stored := file.extract headerLen (headerLen + header.loadLength)
  if header.hasFixups then
    let table := (file.extract header.tableStart file.size).toList
    match Fixups.apply stored table MemoryMap.userStart with
    | (.ok count, fixed) => .ok (fixed, count)
    | (.error offset, _) => .error (.fixupOutside offset)
  else .ok (stored, 0)

/-- The first multiple of 16 from an address on; the last one lies below the end of memory. -/
def alignUp (addr : UInt32) : UInt32 :=
  let padded := if 0xffffffff - 15 < addr then 0xffffffff else addr + 15
  padded &&& ~~~15

/-- The heap starts behind the program and ends at `top`, or is empty there. -/
def heapSpan (basepage : Basepage) (top : UInt32) : HeapSpan :=
  let floor := max (alignUp (basepage.bssBase + basepage.bssLen)) MemoryMap.userStart
  ⟨min floor top, top⟩

def zeros (len : Nat) : Bytes :=
  Array.replicate len 0

def systemArea (name : String) (region : Region) : Area :=
  .ofBuffer name region.base (zeros region.len) .supervisorReadWrite

/-- A supervisor routine returns to instructions that do nothing. -/
def trampolineArea : Area :=
  .ofDevice "supexec return" MemoryMap.trampoline.base MemoryMap.trampoline.len.toUInt32
    .trampoline .supervisorReadOnly

def basepageArea (basepage : Basepage) : Area :=
  .ofBuffer "basepage" MemoryMap.basepage.base basepage.encode.toArray .readOnly

def userArea (stored : Bytes) (ramTop : UInt32) : Area :=
  .ofBuffer "user ram" MemoryMap.userStart
    (stored ++ zeros ((MemoryMap.userLen ramTop).toNat - stored.size)) .readWrite

def areas (basepage : Basepage) (stored : Bytes) (ramTop : UInt32) : List Area :=
  [systemArea "low page" MemoryMap.vectors, trampolineArea,
    systemArea "mid page" MemoryMap.saveArea,
    systemArea "supervisor stack" MemoryMap.supervisorStack, basepageArea basepage,
    userArea stored ramTop]

def initialBasepage (header : Header) (args : List String) (ramTop : UInt32) : Basepage :=
  { Basepage.layout MemoryMap.basepage.base ramTop header.text header.data header.bss with
    dta := MemoryMap.transferArea
    environment := MemoryMap.environment }.withArguments args

/-- The program in a file, and the guest memory it starts in. The heap ends as far below the top of
RAM as user memory starts above zero, and the program has to leave the same room once more. -/
def ofFile (file : Bytes) (args : List String) (ramTop : UInt32) :
    Except LoadFailure (LoadedProgram × GuestMemory) := do
  let header ← (Header.parse file).mapError .badHeader
  let payload := file.size - headerLen
  if payload < header.loadLength then
    throw (.incomplete header.loadLength payload)
  let heapTop := MemoryMap.userLen ramTop
  let available := MemoryMap.userLen heapTop
  if available.toNat < header.imageLength then
    throw (.noRoom header.imageLength available)
  let (stored, fixups) ← segments file header
  let basepage := initialBasepage header args ramTop
  let memory ← (GuestMemory.empty.addAll (areas basepage stored ramTop)).mapError .fault
  return (⟨header, basepage, heapSpan basepage heapTop, ramTop, fixups⟩, memory)

/-- Points the processor at the first instruction, in user mode. What was stored before a fault
stays stored. -/
def launch (program : LoadedProgram) (r : Registers) (memory : GuestMemory) :
    Except Fault Registers × GuestMemory :=
  let sp := program.stackStart
  match memory.write sp .long 0 .user with
  | .error fault => (.error fault, memory)
  | .ok cleared =>
    match cleared.write (sp + 4) .long MemoryMap.basepage.base .user with
    | .error fault => (.error fault, cleared)
    | .ok ready =>
      let launched := r.setAll
        [(.sr, 0), (.ssp, MemoryMap.supervisorStack.stop), (.usp, sp), (.pc, program.entry)]
      (.ok launched, ready)

end LoadedProgram

end AtariTos

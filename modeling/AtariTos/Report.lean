import AtariTos.Calls.Table
import AtariTos.Program.Loaded
import AtariTos.Text.Quoted
import AtariTos.Text.Utf8

namespace AtariTos

namespace Report

def padRight (width : Nat) (text : String) : String :=
  text ++ String.ofList (List.replicate (width - text.length) ' ')

def letters (rights : Rights) (mode : Privilege) : String :=
  (if rights.mayRead mode then "r" else "-") ++ (if rights.mayWrite mode then "w" else "-")

def rightsText (rights : Rights) : String :=
  s!"U:{letters rights .user} S:{letters rights .supervisor}"

def wordText (value : UInt16) : String :=
  s!"0x{hex 4 value.toNat}"

def longText (value : UInt32) : String :=
  s!"0x{hex 8 value.toNat}"

def field (name value : String) : String :=
  s!"{padRight 10 name} {value}"

def header (program : LoadedProgram) : List String :=
  let h := program.header
  [field "magic" (wordText h.magic),
    field "text" (longText h.text),
    field "data" (longText h.data),
    field "bss" (longText h.bss),
    field "symbols" (longText h.symbols),
    field "flags" (longText h.flags),
    field "absflag" s!"{wordText h.absolute} ({program.fixups} fixups applied)"]

/-- The fields of a basepage, the reserved one left out, and the command line in quotes. -/
def basepage (program : LoadedProgram) : List String :=
  let page := program.basepage
  [field "p_lowtpa" (longText page.lowTpa),
    field "p_hitpa" (longText page.highTpa),
    field "p_tbase" (longText page.textBase),
    field "p_tlen" (longText page.textLen),
    field "p_dbase" (longText page.dataBase),
    field "p_dlen" (longText page.dataLen),
    field "p_bbase" (longText page.bssBase),
    field "p_blen" (longText page.bssLen),
    field "p_dta" (longText page.dta),
    field "p_parent" (longText page.parent),
    field "p_env" (longText page.environment),
    field "p_cmdlin" (quotedText (Utf8.decodeLossy page.tail))]

def areaLine (area : Area) : String :=
  s!"{hexAddress area.base.toNat}..{hexAddress area.stop}  {rightsText area.rights}  {area.name}"

def memoryMap (memory : GuestMemory) : List String :=
  memory.areas.map areaLine

def heap (program : LoadedProgram) : String :=
  let heap := program.heap
  s!"heap {hexAddress heap.floor.toNat}..{hexAddress heap.top.toNat} ({heap.len} bytes), " ++
    s!"user stack at {hexAddress program.stackStart.toNat}"

variable {α : Type}

def callStatus (call : Call α) : String :=
  if call.isServiced then "implemented" else "halts"

def call (call : Call α) : String :=
  s!"0x{hex 3 call.code.toNat}  {padRight 26 call.name} {callStatus call}"

def calls (table : CallTable α) : List String :=
  table.sorted.map call

end Report

end AtariTos

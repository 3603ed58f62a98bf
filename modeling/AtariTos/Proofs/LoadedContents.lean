import AtariTos.Proofs.HeapPlacement
import AtariTos.Proofs.LoadOutcomes

namespace AtariTos

namespace Executable

variable {file other : Bytes} {ramTop : UInt32}

theorem areas_congr (args : List String) (text_eq : text other = text file)
    (data_eq : data other = data file) (bss_eq : bss other = bss file)
    (stored_eq : stored other = stored file) (fixups_eq : fixups other = fixups file) :
    areas other args ramTop = areas file args ramTop := by
  have text_eq' : (header other).text = (header file).text := congrArg Nat.toUInt32 text_eq
  have data_eq' : (header other).data = (header file).data := congrArg Nat.toUInt32 data_eq
  have bss_eq' : (header other).bss = (header file).bss := congrArg Nat.toUInt32 bss_eq
  have page : (program other args ramTop).basepage = (program file args ramTop).basepage := by
    simp only [program, LoadedProgram.initialBasepage, text_eq', data_eq', bss_eq']
  rw [areas, areas, page, image, image, stored_eq, fixups_eq]

theorem image_eq (file : Bytes) : image file =
    if absolute file = 0 then Fixups.relocated 0x900 (stored file) (Fixups.offsets (table file))
    else stored file := by
  rw [image, fixups]
  split <;> rfl

theorem segments_program (args : List String)
    (fits : text file + data file + bss file ≤ ramTop.toNat - 0x1200) :
    let page := (program file args ramTop).basepage
    page.textBase.toNat = 0x900 ∧ page.textLen.toNat = text file ∧
      page.dataBase.toNat = 0x900 + text file ∧ page.dataLen.toNat = data file ∧
      page.bssBase.toNat = 0x900 + text file + data file ∧ page.bssLen.toNat = bss file := by
  have text_eq : (header file).text.toNat = text file := toNat_long file 2
  have data_eq : (header file).data.toNat = data file := toNat_long file 6
  have bss_eq : (header file).bss.toNat = bss file := toNat_long file 10
  have start : MemoryMap.userStart.toNat = 0x900 := rfl
  have large : UInt32.size = 4294967296 := rfl
  have bound := ramTop.toNat_lt_size
  have bases := LoadedProgram.bases_initialBasepage (header file) args ramTop (by omega)
  rw [text_eq, data_eq, start] at bases
  exact ⟨bases.1, text_eq, bases.2.1, data_eq, bases.2.2.1, bss_eq⟩

end Executable

namespace Session

open Executable

/-- A program that has been loaded starts in the six areas of the memory map. User memory holds its
text and data, fixed if the file asks for it, and zeros; the basepage can be read back, and its
segments follow each other without a gap. Nothing else of the file and nothing of what was in memory
before is left. -/
theorem load_contents {s loaded : Session} {file : Bytes} {args : List String}
    {program : LoadedProgram} (h : s.load file args = (.ok program, loaded)) :
    (∃ page ram : Bytes,
      loaded.system.memory.areas =
        [.ofBuffer "low page" 0 (Array.replicate 0x200 0) .supervisorReadWrite,
          .ofDevice "supexec return" 0x200 4 .trampoline .supervisorReadOnly,
          .ofBuffer "mid page" 0x380 (Array.replicate 0x280 0) .supervisorReadWrite,
          .ofBuffer "supervisor stack" 0x600 (Array.replicate 0x200 0) .supervisorReadWrite,
          .ofBuffer "basepage" 0x800 page .readOnly, .ofBuffer "user ram" 0x900 ram .readWrite] ∧
      page.size = 0x100 ∧ Basepage.decode? page = some program.basepage ∧
      0x900 + ram.size = s.ramTop.toNat ∧
      ram.toList =
        (if absolute file = 0 then
          Fixups.relocated 0x900 (stored file) (Fixups.offsets (table file))
        else stored file).toList ++
          List.replicate (s.ramTop.toNat - 0x900 - (text file + data file)) 0) ∧
    (program.basepage.textBase.toNat = 0x900 ∧ program.basepage.textLen.toNat = text file ∧
      program.basepage.dataBase.toNat = 0x900 + text file ∧
      program.basepage.dataLen.toNat = data file ∧
      program.basepage.bssBase.toNat = 0x900 + text file + data file ∧
      program.basepage.bssLen.toNat = bss file) ∧
    (0x1200 ≤ s.ramTop.toNat →
      program.basepage.bssBase.toNat + bss file ≤ s.ramTop.toNat - 0x900) ∧
    ∀ (t loaded' : Session) (other : Bytes) (program' : LoadedProgram), t.ramTop = s.ramTop →
      t.load other args = (.ok program', loaded') → text other = text file →
      data other = data file → bss other = bss file → stored other = stored file →
      fixups other = fixups file → loaded'.system.memory = loaded.system.memory := by
  obtain ⟨met, rfl, memory⟩ := met_of_load h
  obtain ⟨_, _, complete, fits, _, room⟩ := firstUnmet?_eq_none_iff.mp met
  have size : (image file).size = text file + data file := size_image complete
  have user := MemoryMap.toNat_userLen s.ramTop
  have short : (image file).size ≤ (MemoryMap.userLen s.ramTop).toNat := by omega
  refine ⟨⟨(Executable.program file args s.ramTop).basepage.encode.toArray,
    image file ++ LoadedProgram.zeros ((MemoryMap.userLen s.ramTop).toNat - (image file).size),
    ?_, Basepage.length_encode _, Basepage.decode?_encode _, ?_, ?_⟩, ?_, ?_, ?_⟩
  · rw [memory]
    rfl
  · rw [LoadedProgram.size_userMemory short]
    omega
  · rw [Array.toList_append, LoadedProgram.zeros, Array.toList_replicate, MemoryMap.toNat_userLen,
      size, image_eq]
  · exact segments_program args fits
  · intro roomy
    have bssBase := (segments_program args fits).2.2.2.2.1
    omega
  · intro t loaded' other program' top loading text_eq data_eq bss_eq stored_eq fixups_eq
    rw [(met_of_load loading).2.2, memory, top,
      areas_congr args text_eq data_eq bss_eq stored_eq fixups_eq]

/-- A program with one longword to fix, a symbol table and a relocation table. -/
def relocatable : Bytes :=
  #[0x60, 0x1a, 0, 0, 0, 8, 0, 0, 0, 0, 0, 0, 0, 4, 0, 0, 0, 2, 0, 0, 0, 0, 0, 0, 0, 0, 0, 0, 0x4e,
    0x71, 0x4e, 0x75, 0, 0, 0, 0x10, 0xaa, 0xbb, 0, 0, 0, 4, 0]

theorem load_contents_relocatable : ∃ program loaded ram,
    littleMemory.load relocatable [] = (.ok program, loaded) ∧
      Area.ofBuffer "user ram" 0x900 ram .readWrite ∈ loaded.system.memory.areas ∧
      ram.toList = [0x4e, 0x71, 0x4e, 0x75, 0, 0, 9, 0x10] ++ List.replicate 0x9f8 0 := by
  have met : firstUnmet? (conditions relocatable littleMemory.ramTop) = none := by decide +kernel
  obtain ⟨loaded, loading⟩ := exists_load_of_met [] met
  obtain ⟨⟨page, ram, areas, _, _, _, bytes⟩, _⟩ := load_contents loading
  have fixed : (image relocatable).toList = [0x4e, 0x71, 0x4e, 0x75, 0, 0, 9, 0x10] := by
    decide +kernel
  have free : littleMemory.ramTop.toNat - 0x900 - (text relocatable + data relocatable) = 0x9f8 := by
    decide +kernel
  refine ⟨_, loaded, ram, loading, ?_, ?_⟩
  · rw [areas]
    simp
  · rw [bytes, ← image_eq, fixed, free]

end Session

end AtariTos

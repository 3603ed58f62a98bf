import AtariTos.Proofs.HeapHistories

namespace AtariTos

namespace GuestMemory

variable {memory : GuestMemory} {area : Area} {addr : UInt32} {width : Width} {mode : Privilege}

theorem Ordered.exists_read (ordered : memory.Ordered) (member : area ∈ memory.areas)
    (inside : addr.toNat ∈ area.addresses) (fits : addr.toNat + width.bytes ≤ area.stop)
    (allowed : area.rights.mayRead mode = true) :
    ∃ value next, memory.read addr width mode = .ok (value, next) := by
  have located : memory.locate addr width.bytes .read mode = .ok area :=
    ordered.locate_eq_ok_iff.mpr ⟨member, inside, fits, allowed⟩
  have some_asked : width.bytes ≠ 0 := by cases width <;> decide
  rw [read, load_cases, if_neg some_asked, located]
  dsimp only
  split <;> exact ⟨_, _, rfl⟩

theorem Ordered.exists_write (ordered : memory.Ordered) (member : area ∈ memory.areas)
    (inside : addr.toNat ∈ area.addresses) (fits : addr.toNat + width.bytes ≤ area.stop)
    (allowed : area.rights.mayWrite mode = true) (value : UInt32) :
    ∃ next, memory.write addr width value mode = .ok next := by
  have located : memory.locate addr (width.encode value).length .write mode = .ok area := by
    rw [Width.encode_length]
    exact ordered.locate_eq_ok_iff.mpr ⟨member, inside, fits, allowed⟩
  rw [write, store_cases, located]
  split <;> exact ⟨_, rfl⟩

end GuestMemory

namespace LoadedProgram.Placed

variable {program : LoadedProgram} {start memory : GuestMemory} {heap : Heap} {b : Block}

theorem stackStop (placed : program.Placed start) :
    program.stackStart.toNat + 8 = program.ramTop.toNat := by
  have room := placed.room
  have userStart : MemoryMap.userStart.toNat = 0x900 := rfl
  have eight : (8 : UInt32).toNat = 8 := rfl
  have enough : (8 : UInt32) ≤ program.ramTop := UInt32.le_iff_toNat_le.mpr (by omega)
  rw [LoadedProgram.stackStart, UInt32.toNat_sub_of_le _ _ enough]
  omega

theorem usable (placed : program.Placed start) (layout : memory.layout = start.layout)
    {addr : UInt32} (low : MemoryMap.userStart.toNat ≤ addr.toNat)
    (high : addr.toNat < program.ramTop.toNat) :
    (∃ value next, memory.read addr .byte .user = .ok (value, next)) ∧
      ∀ value, ∃ next, memory.write addr .byte value .user = .ok next := by
  have ordered : memory.Ordered := placed.ordered.of_layout layout
  obtain ⟨user, member, base, stop, rights⟩ := placed.user
  obtain ⟨area, here, outline⟩ := GuestMemory.exists_of_layout layout member
  have area_base := (Area.base_eq_of_outline outline).trans base
  have area_stop := (Area.stop_eq_of_outline outline).trans stop
  have area_rights := (Area.rights_eq_of_outline outline).trans rights
  have within : addr.toNat ∈ area.addresses := by
    rw [Area.addresses, Set.mem_Ico, area_base, area_stop]
    exact ⟨low, high⟩
  have fits : addr.toNat + Width.byte.bytes ≤ area.stop := by
    rw [area_stop]
    exact high
  exact ⟨ordered.exists_read here within fits (by rw [area_rights]; rfl),
    ordered.exists_write here within fits (by rw [area_rights]; rfl)⟩

theorem block_bounds (placed : program.Placed start) (tidy : heap.Tidy)
    (span : heap.span = program.heap) (hb : b ∈ heap.blocks) :
    program.imageEnd ≤ b.base.toNat ∧
      b.stop ≤ program.ramTop.toNat - MemoryMap.userStart.toNat := by
  obtain ⟨low, high⟩ := tidy.inside b hb
  have filled := tidy.filled b hb
  have extent : b.stop = b.base.toNat + b.len.toNat := rfl
  have heapTop := placed.heapTop
  rw [span] at low high
  refine ⟨?_, by omega⟩
  rcases placed.heapFloor with empty | behind
  · rw [empty] at low
    omega
  · omega

end LoadedProgram.Placed

namespace Session

variable {s loaded : Session} {actions : List Action} {file : Bytes} {args : List String}
  {program : LoadedProgram}

theorem load_eq_ok (h : s.load file args = (.ok program, loaded)) :
    ∃ memory, LoadedProgram.ofFile file args s.ramTop = .ok (program, memory) ∧
      loaded.system.memory = memory ∧ loaded.system.kernel.heap = Heap.ofSpan program.heap := by
  obtain ⟨memory, built, rfl⟩ := exists_of_load h
  exact ⟨memory, built, rfl, rfl⟩

theorem kept_of_load (h : s.load file args = (.ok program, loaded))
    (keeps : ∀ action ∈ actions, action.keepsProgram) :
    program.Placed loaded.system.memory ∧
      (loaded.performAll actions).system.kernel.heap.Tidy ∧
      (loaded.performAll actions).system.kernel.heap.span = program.heap ∧
      (loaded.performAll actions).system.memory.layout = loaded.system.memory.layout := by
  obtain ⟨memory, built, rfl, heap⟩ := load_eq_ok h
  obtain ⟨placed, _, _⟩ := LoadedProgram.placed_of_ofFile built
  obtain ⟨tidy, span⟩ := (Heap.tidy_ofSpan program.heap).callAll (loaded.heapCalls actions)
  rw [heap_performAll keeps, heap]
  exact ⟨placed, tidy, span, layout_performAll placed.ordered keeps⟩

theorem ordered_of_load (h : s.load file args = (.ok program, loaded))
    (keeps : ∀ action ∈ actions, action.keepsProgram) :
    (loaded.performAll actions).system.memory.Ordered := by
  obtain ⟨placed, _, _, layout⟩ := kept_of_load h keeps
  exact placed.ordered.of_layout layout

/-- After a program has been loaded, whatever calls on the heap and other actions follow, every
block lies behind the bss and below the room that is left for the stack. The program may read and
write every byte of it, no two blocks share an address, and none reaches into the eight bytes in
which the program finds its arguments. No address that loading computes, and no end of a block, goes
past the last longword. -/
theorem heap_placement (h : s.load file args = (.ok program, loaded))
    (keeps : ∀ action ∈ actions, action.keepsProgram) :
    let memory := (loaded.performAll actions).system.memory
    let blocks := (loaded.performAll actions).system.kernel.heap.blocks
    let image := program.header.text.toNat + program.header.data.toNat + program.header.bss.toNat
    Header.parse file = .ok program.header ∧
    (∀ b ∈ blocks, 0 < b.len.toNat ∧ 0x900 + image ≤ b.base.toNat ∧
      b.stop ≤ s.ramTop.toNat - 0x900 ∧ (b.base + b.len).toNat = b.stop ∧
      Disjoint b.addresses (Set.Ico program.stackStart.toNat (program.stackStart.toNat + 8)) ∧
      ∀ addr : UInt32, addr.toNat ∈ b.addresses →
        (∃ value next, memory.read addr .byte .user = .ok (value, next)) ∧
        ∀ value, ∃ next, memory.write addr .byte value .user = .ok next) ∧
    blocks.Pairwise (fun a b => Disjoint a.addresses b.addresses) ∧
    program.stackStart.toNat + 8 = s.ramTop.toNat ∧
    program.basepage.textBase.toNat = 0x900 ∧
    program.basepage.dataBase.toNat = 0x900 + program.header.text.toNat ∧
    program.basepage.bssBase.toNat =
      0x900 + program.header.text.toNat + program.header.data.toNat ∧
    (program.basepage.bssBase + program.basepage.bssLen).toNat = 0x900 + image := by
  intro memory blocks image
  obtain ⟨start, built, rfl, _⟩ := load_eq_ok h
  obtain ⟨placed, parsed, top⟩ := LoadedProgram.placed_of_ofFile built
  obtain ⟨_, tidy, span, layout⟩ := kept_of_load h keeps
  have userStart : MemoryMap.userStart.toNat = 0x900 := rfl
  have imageEnd : program.imageEnd = 0x900 + image := rfl
  have room := placed.room
  have stack := placed.stackStop
  rw [top] at stack room
  refine ⟨parsed, fun b hb => ?_, tidy.disjoint, stack, placed.textBase, placed.dataBase,
    placed.bssBase, placed.bssStop⟩
  obtain ⟨behind, below⟩ := placed.block_bounds tidy span hb
  have filled := tidy.filled b hb
  have extent : b.stop = b.base.toNat + b.len.toNat := rfl
  have bounded := s.ramTop.toNat_lt_size
  rw [top] at below
  refine ⟨filled, by omega, by omega, ?_, ?_, fun addr inside => ?_⟩
  · have large : UInt32.size = 4294967296 := rfl
    rw [UInt32.toNat_add]
    omega
  · rw [Block.addresses, Set.Ico_disjoint_Ico]
    omega
  · obtain ⟨low, high⟩ := inside
    exact placed.usable layout (by omega) (by rw [top]; omega)

/-- A machine with just enough memory for a heap. -/
def littleMemory : Session where
  ramTop := 0x1300
  system := { kernel := { drive := { root := [] } } }

/-- An executable file of one instruction, without a relocation table. -/
def oneInstruction : Bytes :=
  #[0x60, 0x1a, 0, 0, 0, 2, 0, 0, 0, 0, 0, 0, 0, 0, 0, 0, 0, 0, 0, 0, 0, 0, 0, 0, 0, 0, 1, 0, 0x4e,
    0x75]

def loadedInstruction : LoadedProgram :=
  let header : Header := ⟨0x601a, 2, 0, 0, 0, 0, 0, 0x100⟩
  ⟨header, LoadedProgram.initialBasepage header [] 0x1300, ⟨0x910, 0xa00⟩, 0x1300, 0⟩

def loadedAreas : List Area :=
  LoadedProgram.areas loadedInstruction.basepage #[0x4e, 0x75] 0x1300

def withInstruction : Session where
  ramTop := 0x1300
  program := some loadedInstruction
  system :=
    { memory := (GuestMemory.empty.addAll loadedAreas).toOption.getD .empty
      kernel := { drive := { root := [] }, heap := .ofSpan ⟨0x910, 0xa00⟩ } }

/-- The program calls for a block of sixteen bytes. -/
def reserveSixteen : List Action :=
  [.registers { address := #v[0, 0, 0, 0, 0, 0, 0, 0xa00] },
    .write 0xa00 [0, 0x48, 0, 0, 0, 0x10] .user, .trap Trap.gemdosVector]

set_option maxRecDepth 10000 in
theorem isOk_loadedAreas : (GuestMemory.empty.addAll loadedAreas).isOk = true := by
  rw [loadedAreas, LoadedProgram.areas, LoadedProgram.userArea_eq]
  decide +kernel

set_option maxRecDepth 10000 in
theorem blocks_reserveSixteen :
    (withInstruction.performAll reserveSixteen).system.kernel.heap.blocks = [⟨0x910, 0x10⟩] := by
  rw [withInstruction, loadedAreas, LoadedProgram.areas, LoadedProgram.userArea_eq]
  decide +kernel

theorem load_oneInstruction :
    littleMemory.load oneInstruction [] = (.ok loadedInstruction, withInstruction) := by
  cases added : GuestMemory.empty.addAll loadedAreas with
  | error fault =>
    have fit := isOk_loadedAreas
    rw [added] at fit
    cases fit
  | ok memory =>
    have built : LoadedProgram.ofFile oneInstruction [] littleMemory.ramTop =
        .ok (loadedInstruction, memory) :=
      LoadedProgram.ofFile_eq_ok_iff.mpr ⟨#[0x4e, 0x75], by decide +kernel, by decide +kernel,
        by decide +kernel, by decide +kernel, added, rfl, by decide +kernel, rfl⟩
    rw [load, built, withInstruction, added]
    rfl

theorem heap_placement_reserveSixteen :
    littleMemory.load oneInstruction [] = (.ok loadedInstruction, withInstruction) ∧
      ⟨0x910, 0x10⟩ ∈ (withInstruction.performAll reserveSixteen).system.kernel.heap.blocks ∧
      ∀ addr : UInt32, addr.toNat ∈ Set.Ico 0x910 0x920 → ∀ value, ∃ next,
        (withInstruction.performAll reserveSixteen).system.memory.write addr .byte value .user =
          .ok next := by
  have member : ⟨0x910, 0x10⟩ ∈
      (withInstruction.performAll reserveSixteen).system.kernel.heap.blocks := by
    rw [blocks_reserveSixteen]
    exact List.mem_singleton.mpr rfl
  refine ⟨load_oneInstruction, member, fun addr inside => ?_⟩
  have keeps : ∀ action ∈ reserveSixteen, action.keepsProgram := by decide
  have placement := heap_placement load_oneInstruction keeps
  obtain ⟨_, _, _, _, _, usable⟩ := placement.2.1 _ member
  exact (usable addr inside).2

end Session

end AtariTos

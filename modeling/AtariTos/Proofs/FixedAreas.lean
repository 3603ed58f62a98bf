import AtariTos.Proofs.LoadedContents
import Mathlib.Data.List.Forall2

namespace AtariTos

namespace Storage

/-- How many bytes a buffer holds; a device holds none. -/
def bufferSize? : Storage → Option Nat
  | buffer bytes => some bytes.size
  | device _ _ => none

theorem bufferSize?_load (storage : Storage) (offset count : Nat) :
    (storage.load offset count).2.bufferSize? = storage.bufferSize? := by
  cases storage <;> rfl

theorem bufferSize?_store (storage : Storage) (offset : Nat) (data : List UInt8) :
    (storage.store offset data).bufferSize? = storage.bufferSize? := by
  cases storage with
  | buffer bytes => exact congrArg some (Bytes.size_overwrite bytes offset data)
  | device len d => rfl

end Storage

namespace Area

variable {a b c : Area}

/-- Nobody may write to the area, and being read leaves no trace. -/
def IsFixed (a : Area) : Prop :=
  a.rights.mayWrite .supervisor = false ∧ a.IsSilent

/-- An area before and after accesses that respect its rights. -/
structure Preserved (a b : Area) : Prop where
  outline : b.outline = a.outline
  size : b.storage.bufferSize? = a.storage.bufferSize?
  fixed : a.IsFixed → b = a

theorem Preserved.refl (a : Area) : a.Preserved a :=
  ⟨rfl, rfl, fun _ => rfl⟩

theorem Preserved.trans (h : a.Preserved b) (h' : b.Preserved c) : a.Preserved c := by
  refine ⟨h'.outline.trans h.outline, h'.size.trans h.size, fun fixed => ?_⟩
  have same := h.fixed fixed
  exact (h'.fixed (same ▸ fixed)).trans same

theorem preserved_load (a : Area) (addr : UInt32) (count : Nat) :
    a.Preserved (a.load addr count).2 :=
  ⟨a.outline_load addr count, a.storage.bufferSize?_load _ count,
    fun fixed => fixed.2.load addr count⟩

theorem preserved_store {mode : Privilege} (allowed : a.rights.permits .write mode) (addr : UInt32)
    (data : List UInt8) : a.Preserved (a.store addr data) := by
  refine ⟨a.outline_store addr data, a.storage.bufferSize?_store _ data, fun fixed => ?_⟩
  have writable : a.rights.mayWrite .supervisor = true := by
    cases mode with
    | user => exact Rights.permits_supervisor allowed
    | supervisor => exact allowed
  rw [fixed.1] at writable
  cases writable

theorem load_all (name : String) (base : UInt32) (data : List UInt8) (rights : Rights) :
    ((ofBuffer name base data.toArray rights).load base data.length).1 = data := by
  simp [ofBuffer, load, Storage.load, offset]

theorem Preserved.exists_buffer {size : Nat} (h : a.Preserved b)
    (buffer : a.storage.bufferSize? = some size) :
    ∃ bytes : Bytes, b = .ofBuffer a.name a.base bytes a.rights ∧ bytes.size = size := by
  have held := h.size.trans buffer
  have name : b.name = a.name := congrArg Outline.name h.outline
  have base := base_eq_of_outline h.outline
  have rights := rights_eq_of_outline h.outline
  obtain ⟨name', base', rights', storage⟩ := b
  cases storage with
  | buffer bytes =>
    obtain rfl : name' = a.name := name
    obtain rfl : base' = a.base := base
    obtain rfl : rights' = a.rights := rights
    exact ⟨bytes, rfl, Option.some.inj held⟩
  | device len d => cases held

end Area

namespace GuestMemory

variable {memory next : GuestMemory} {area : Area} {addr : UInt32} {count : Nat}
  {mode : Privilege}

/-- The areas of a memory, one by one, before and after accesses that respect their rights. -/
def Preserved (memory next : GuestMemory) : Prop :=
  List.Forall₂ Area.Preserved memory.areas next.areas

theorem Preserved.refl (memory : GuestMemory) : memory.Preserved memory :=
  List.forall₂_same.mpr fun a _ => .refl a

theorem Preserved.trans {last : GuestMemory} (h : memory.Preserved next)
    (h' : next.Preserved last) : memory.Preserved last := by
  obtain ⟨areas⟩ := memory
  obtain ⟨areas'⟩ := next
  obtain ⟨areas''⟩ := last
  change List.Forall₂ _ areas areas' at h
  change List.Forall₂ _ areas' areas'' at h'
  change List.Forall₂ _ areas areas''
  induction h generalizing areas'' with
  | nil =>
    cases h'
    exact .nil
  | cons first _ ih =>
    obtain ⟨c, rest, second, others, rfl⟩ := List.forall₂_cons_left_iff.mp h'
    exact .cons (first.trans second) (ih rest others)

theorem preserved_modify {base : UInt32} {change : Area → Area}
    (h : ∀ a ∈ memory.areas, a.base = base → a.Preserved (change a)) :
    memory.Preserved (memory.modify base change) := by
  refine List.forall₂_map_right_iff.mpr (List.forall₂_same.mpr fun a ha => ?_)
  split
  next here => exact h a ha here
  · exact .refl a

theorem Ordered.preserved_load (ordered : memory.Ordered) {values : List UInt8}
    (h : memory.load addr count mode = .ok (values, next)) : memory.Preserved next := by
  rcases ordered.load_eq_ok h with ⟨_, _, rfl⟩ | ⟨area, member, _, _, _, _, rfl | ⟨_, rfl⟩⟩
  · exact .refl _
  · exact .refl _
  · refine preserved_modify fun a ha same => ?_
    obtain rfl := ordered.eq_of_base ha member same
    exact a.preserved_load addr count

theorem Ordered.preserved_store (ordered : memory.Ordered) {data : List UInt8}
    (h : memory.store addr data mode = .ok next) : memory.Preserved next := by
  rcases ordered.store_eq_ok h with ⟨_, rfl⟩ | ⟨area, member, _, _, allowed, rfl⟩
  · exact .refl _
  · refine preserved_modify fun a ha same => ?_
    obtain rfl := ordered.eq_of_base ha member same
    exact Area.preserved_store allowed addr data

theorem Accessed.preserved (h : memory.Accessed next) (ordered : memory.Ordered) :
    memory.Preserved next := by
  induction h with
  | refl => exact .refl _
  | load before loaded ih =>
    have ordered' := ordered.of_layout (before.changedIn ordered).layout
    exact ih.trans (ordered'.preserved_load loaded)
  | store before stored ih =>
    have ordered' := ordered.of_layout (before.changedIn ordered).layout
    exact ih.trans (ordered'.preserved_store stored)

theorem Ordered.load_of_mem (ordered : memory.Ordered) (silent : memory.Each Area.IsSilent)
    (member : area ∈ memory.areas) (inside : addr.toNat ∈ area.addresses)
    (fits : addr.toNat + count ≤ area.stop) (some_asked : count ≠ 0)
    (allowed : area.rights.mayRead mode = true) :
    memory.load addr count mode = .ok ((area.load addr count).1, memory) := by
  have located : memory.locate addr count .read mode = .ok area :=
    ordered.locate_eq_ok_iff.mpr ⟨member, inside, fits, allowed⟩
  have opened : memory.load addr count mode =
      if area.isBuffer then .ok ((area.load addr count).1, memory)
      else .ok ((area.load addr count).1,
        memory.modify area.base fun _ => (area.load addr count).2) := by
    rw [load_cases, if_neg some_asked, located]
  have loaded := opened
  split at loaded
  · exact loaded
  · rw [loaded, ordered.load_of_isSilent silent loaded]

end GuestMemory

namespace LoadedProgram

variable {basepage : Basepage} {stored : Bytes} {ramTop : UInt32} {areas' : List Area}

theorem load_basepageArea (basepage : Basepage) :
    ((basepageArea basepage).load 0x800 0x100).1 = basepage.encode := by
  have whole := Area.load_all "basepage" 0x800 basepage.encode .readOnly
  rwa [basepage.length_encode] at whole

theorem exists_of_preserved (short : stored.size ≤ (MemoryMap.userLen ramTop).toNat)
    (h : List.Forall₂ Area.Preserved (areas basepage stored ramTop) areas') :
    ∃ low mid stack ram : Bytes,
      areas' =
        [.ofBuffer "low page" 0 low .supervisorReadWrite, trampolineArea,
          .ofBuffer "mid page" 0x380 mid .supervisorReadWrite,
          .ofBuffer "supervisor stack" 0x600 stack .supervisorReadWrite, basepageArea basepage,
          .ofBuffer "user ram" 0x900 ram .readWrite] ∧
      low.size = 0x200 ∧ mid.size = 0x280 ∧ stack.size = 0x200 ∧
      ram.size = (MemoryMap.userLen ramTop).toNat := by
  rw [areas] at h
  -- Six areas before, so six behind; those that are fixed are equal, the others have their bytes.
  obtain _ | ⟨keptLow, _ | ⟨keptTrampoline, _ | ⟨keptMid, _ | ⟨keptStack, _ | ⟨keptBasepage,
    _ | ⟨keptRam, _ | _⟩⟩⟩⟩⟩⟩ := h
  obtain rfl := keptTrampoline.fixed ⟨rfl, Device.trampoline_isSilent⟩
  obtain rfl := keptBasepage.fixed ⟨rfl, trivial⟩
  obtain ⟨low, rfl, lowSize⟩ := keptLow.exists_buffer (congrArg some (size_zeros _))
  obtain ⟨mid, rfl, midSize⟩ := keptMid.exists_buffer (congrArg some (size_zeros _))
  obtain ⟨stack, rfl, stackSize⟩ := keptStack.exists_buffer (congrArg some (size_zeros _))
  obtain ⟨ram, rfl, ramSize⟩ := keptRam.exists_buffer (congrArg some (size_userMemory short))
  exact ⟨low, mid, stack, ram, rfl, lowSize, midSize, stackSize, ramSize⟩

end LoadedProgram

namespace GuestMemory

open LoadedProgram

variable {memory : GuestMemory}

theorem Ordered.load_basepage (ordered : memory.Ordered) (silent : memory.Each Area.IsSilent)
    {basepage : Basepage} (member : basepageArea basepage ∈ memory.areas) (mode : Privilege) :
    memory.load 0x800 0x100 mode = .ok (basepage.encode, memory) := by
  have page := stop_basepageArea basepage
  have read : memory.load 0x800 0x100 mode =
      .ok (((basepageArea basepage).load 0x800 0x100).1, memory) :=
    ordered.load_of_mem silent member ⟨Nat.le_refl _, by rw [page]; decide⟩ (by rw [page]; decide)
      (by decide) (by cases mode <;> rfl)
  rwa [load_basepageArea] at read

theorem Ordered.load_trampoline (ordered : memory.Ordered) (silent : memory.Each Area.IsSilent)
    (member : trampolineArea ∈ memory.areas) :
    memory.load 0x200 4 .supervisor = .ok ([0x4e, 0x71, 0x4e, 0x71], memory) :=
  ordered.load_of_mem silent member ⟨by decide, by decide⟩ (by decide) (by decide) rfl

theorem Ordered.read_trampoline (ordered : memory.Ordered) (silent : memory.Each Area.IsSilent)
    (member : trampolineArea ∈ memory.areas) {addr : UInt32} (here : addr = 0x200 ∨ addr = 0x202) :
    memory.read addr .word .supervisor = .ok (0x4e71, memory) := by
  rw [read]
  rcases here with rfl | rfl
  · rw [ordered.load_of_mem silent member ⟨by decide, by decide⟩ (by decide) (by decide) rfl]
    rfl
  · rw [ordered.load_of_mem silent member ⟨by decide, by decide⟩ (by decide) (by decide) rfl]
    rfl

end GuestMemory

namespace Session

open Executable

variable {s loaded : Session} {file : Bytes} {args : List String} {program : LoadedProgram}
  {actions : List Action}

/-- The run is one chain of accesses, and none of them changes an area that nobody may write to. -/
theorem areas_performAll (load : s.load file args = (.ok program, loaded))
    (keeps : ∀ action ∈ actions, action.keepsProgram) :
    ∃ low mid stack ram : Bytes,
      (loaded.performAll actions).system.memory.areas =
        [.ofBuffer "low page" 0 low .supervisorReadWrite, LoadedProgram.trampolineArea,
          .ofBuffer "mid page" 0x380 mid .supervisorReadWrite,
          .ofBuffer "supervisor stack" 0x600 stack .supervisorReadWrite,
          LoadedProgram.basepageArea program.basepage, .ofBuffer "user ram" 0x900 ram .readWrite] ∧
      low.size = 0x200 ∧ mid.size = 0x280 ∧ stack.size = 0x200 ∧
      0x900 + ram.size = s.ramTop.toNat := by
  obtain ⟨met, rfl, start⟩ := met_of_load load
  obtain ⟨_, _, complete, fits, _, room⟩ := firstUnmet?_eq_none_iff.mp met
  have size : (image file).size = text file + data file := size_image complete
  have user := MemoryMap.toNat_userLen s.ramTop
  obtain ⟨placed, _⟩ := kept_of_load load keeps
  have preserved := (loaded.accessed_performAll keeps).preserved placed.ordered
  rw [GuestMemory.Preserved, start] at preserved
  obtain ⟨low, mid, stack, ram, areas, lowSize, midSize, stackSize, ramSize⟩ :=
    LoadedProgram.exists_of_preserved (by omega) preserved
  exact ⟨low, mid, stack, ram, areas, lowSize, midSize, stackSize, by omega⟩

/-- As long as a program stays loaded, whatever it does, however it is launched, interrupted and
resumed, and wherever the processor reads and writes in either privilege: guest memory consists of
the six areas that loading has made, in their places and with their rights, the basepage holds what
loading has put there, and the trampoline reads as two instructions that do nothing. -/
theorem memoryMap_performAll (load : s.load file args = (.ok program, loaded))
    (keeps : ∀ action ∈ actions, action.keepsProgram) :
    let memory := (loaded.performAll actions).system.memory
    (loaded.performAll actions).program = some program ∧
    (∃ low mid stack ram : Bytes,
      memory.areas =
        [.ofBuffer "low page" 0 low .supervisorReadWrite,
          .ofDevice "supexec return" 0x200 4 .trampoline .supervisorReadOnly,
          .ofBuffer "mid page" 0x380 mid .supervisorReadWrite,
          .ofBuffer "supervisor stack" 0x600 stack .supervisorReadWrite,
          .ofBuffer "basepage" 0x800 program.basepage.encode.toArray .readOnly,
          .ofBuffer "user ram" 0x900 ram .readWrite] ∧
      low.size = 0x200 ∧ mid.size = 0x280 ∧ stack.size = 0x200 ∧
      0x900 + ram.size = s.ramTop.toNat) ∧
    (∀ mode, memory.load 0x800 0x100 mode = .ok (program.basepage.encode, memory)) ∧
    memory.load 0x200 4 .supervisor = .ok ([0x4e, 0x71, 0x4e, 0x71], memory) ∧
    ∀ addr ∈ [0x200, 0x202], memory.read addr .word .supervisor = .ok (0x4e71, memory) := by
  intro memory
  have ordered : memory.Ordered := ordered_of_load load keeps
  have silent : memory.Each Area.IsSilent := isSilent_of_load load actions
  obtain ⟨low, mid, stack, ram, areas, sizes⟩ := areas_performAll load keeps
  change memory.areas = _ at areas
  have trampoline : LoadedProgram.trampolineArea ∈ memory.areas := by simp [areas]
  have page : LoadedProgram.basepageArea program.basepage ∈ memory.areas := by simp [areas]
  refine ⟨?_, ⟨low, mid, stack, ram, areas, sizes⟩, ordered.load_basepage silent page,
    ordered.load_trampoline silent trampoline, fun addr member => ?_⟩
  · obtain ⟨_, _, rfl⟩ := exists_of_load load
    exact Session.program_performAll _ keeps
  · exact ordered.read_trampoline silent trampoline (by simpa using member)

/-- The supervisor writes to the basepage and to the trampoline, and asks for an exception vector
in place of the trampoline. -/
def overwriting : List Action :=
  [.launch, .write 0x800 [0xff, 0xff] .supervisor, .write 0x200 [0x4e, 0x75] .supervisor,
    .registers { sr := Privilege.statusBit, address := #v[0, 0, 0, 0, 0, 0, 0, 0x700] },
    .write 0x700 [0, 5, 0, 0x80, 0, 0, 0x09, 0] .supervisor, .trap Trap.biosVector]

theorem memoryMap_performAll_overwriting :
    littleMemory.load oneInstruction [] = (.ok loadedInstruction, withInstruction) ∧
      (let memory := (withInstruction.performAll overwriting).system.memory
      memory.load 0x800 0x100 .user = .ok (loadedInstruction.basepage.encode, memory) ∧
        memory.load 0x200 4 .supervisor = .ok ([0x4e, 0x71, 0x4e, 0x71], memory)) := by
  have keeps : ∀ action ∈ overwriting, action.keepsProgram := by decide
  obtain ⟨_, _, basepage, trampoline, _⟩ := memoryMap_performAll load_oneInstruction keeps
  exact ⟨load_oneInstruction, basepage .user, trampoline⟩

end Session

end AtariTos

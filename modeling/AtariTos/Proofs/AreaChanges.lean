import AtariTos.Proofs.MemoryLayout

namespace AtariTos

namespace GuestMemory

variable {memory next : GuestMemory} {area : Area}

/-- Comparing a new area with the nearest one below its end compares it with all of them. -/
theorem Ordered.nearest_last_apart_iff (ordered : memory.Ordered) (filled : area.isEmpty = false) :
    (∀ existing, memory.nearest? area.last = some existing → existing.stop ≤ area.base.toNat) ↔
      ∀ other ∈ memory.areas, area.stop ≤ other.base.toNat ∨ other.stop ≤ area.base.toNat := by
  have size : UInt32.size = 4294967296 := rfl
  have last := area.toNat_last
  have positive := Area.base_lt_stop filled
  constructor
  · intro clear other ho
    by_cases below : other.base ≤ area.last
    · obtain ⟨existing, found⟩ := exists_nearest? ho below
      have free := clear existing found
      right
      rcases (ordered.of_nearest? found).2.2 other ho below with rfl | before
      · exact free
      · have := existing.base_le_stop
        omega
    · left
      have above := UInt32.not_le.mp below
      have := UInt32.lt_iff_toNat_lt.mp above
      have := other.base.toNat_lt_size
      omega
  · intro apart existing found
    obtain ⟨he, low, _⟩ := ordered.of_nearest? found
    have := UInt32.le_iff_toNat_le.mp low
    rcases apart existing he with above | below
    · omega
    · exact below

theorem insertSorted_perm (area : Area) (areas : List Area) :
    (insertSorted area areas).Perm (area :: areas) := by
  induction areas with
  | nil => exact List.Perm.refl _
  | cons other rest ih =>
    rw [insertSorted]
    split
    · exact List.Perm.refl _
    · exact (ih.cons other).trans (List.Perm.swap area other rest)

theorem mem_insertSorted {a : Area} {areas : List Area} :
    a ∈ insertSorted area areas ↔ a = area ∨ a ∈ areas := by
  rw [(insertSorted_perm area areas).mem_iff, List.mem_cons]

theorem insertSorted_separate {areas : List Area} (filled : area.isEmpty = false)
    (separate : areas.Pairwise fun a b => a.stop ≤ b.base.toNat)
    (apart : ∀ other ∈ areas, area.stop ≤ other.base.toNat ∨ other.stop ≤ area.base.toNat) :
    (insertSorted area areas).Pairwise fun a b => a.stop ≤ b.base.toNat := by
  have positive := Area.base_lt_stop filled
  induction areas with
  | nil => exact List.pairwise_singleton _ _
  | cons other rest ih =>
    obtain ⟨behind, separate⟩ := List.pairwise_cons.mp separate
    have here := apart other (by simp)
    have long := other.base_le_stop
    rw [insertSorted]
    split
    next low =>
      have := UInt32.lt_iff_toNat_lt.mp low
      refine List.pairwise_cons.mpr ⟨fun later hl => ?_, List.pairwise_cons.mpr ⟨behind, separate⟩⟩
      rcases List.mem_cons.mp hl with rfl | hl
      · omega
      · have := behind later hl
        omega
    next high =>
      have := UInt32.le_iff_toNat_le.mp (UInt32.not_lt.mp high)
      have sorted := ih separate fun later hl => apart later (List.mem_cons_of_mem _ hl)
      refine List.pairwise_cons.mpr ⟨fun later hl => ?_, sorted⟩
      rcases mem_insertSorted.mp hl with rfl | hl
      · omega
      · exact behind later hl

theorem filter_insertSorted {keep : Area → Bool} (dropped : keep area = false)
    (areas : List Area) : (insertSorted area areas).filter keep = areas.filter keep := by
  induction areas with
  | nil => simp [insertSorted, dropped]
  | cons other rest ih =>
    rw [insertSorted]
    split
    · simp [dropped]
    · simp [List.filter_cons, ih]

theorem Ordered.add_eq_ok_iff (ordered : memory.Ordered) :
    memory.add area = .ok next ↔ area.isEmpty = false ∧
      (∀ other ∈ memory.areas, area.stop ≤ other.base.toNat ∨ other.stop ≤ area.base.toNat) ∧
      next = ⟨insertSorted area memory.areas⟩ := by
  rw [add_eq]
  cases filled : area.isEmpty with
  | true => simp
  | false =>
    rw [← ordered.nearest_last_apart_iff filled]
    cases found : memory.nearest? area.last with
    | none => simp [eq_comm]
    | some existing =>
      by_cases clear : area.base.toNat < existing.stop
      · simp [clear, Nat.not_le.mpr clear]
      · simp [clear, Nat.not_lt.mp clear, eq_comm]

theorem Ordered.add (ordered : memory.Ordered) (h : memory.add area = .ok next) :
    next.Ordered := by
  obtain ⟨filled, apart, rfl⟩ := ordered.add_eq_ok_iff.mp h
  refine ⟨insertSorted_separate filled ordered.separate apart, fun a ha => ?_⟩
  rcases mem_insertSorted.mp ha with rfl | ha
  · exact filled
  · exact ordered.filled a ha

theorem Ordered.remove_add (ordered : memory.Ordered) (h : memory.add area = .ok next) :
    next.remove area.base = .ok (area, memory) := by
  have sorted := ordered.add h
  obtain ⟨filled, apart, rfl⟩ := ordered.add_eq_ok_iff.mp h
  have found := sorted.find?_base (mem_insertSorted.mpr (.inl rfl))
  have others : ∀ other ∈ memory.areas, other.base ≠ area.base := by
    intro other ho same
    have := Area.base_lt_stop filled
    have := Area.base_lt_stop (ordered.filled other ho)
    have := apart other ho
    rw [same] at *
    omega
  have rest : memory.areas.filter (·.base ≠ area.base) = memory.areas :=
    List.filter_eq_self.mpr fun other ho => decide_eq_true (others other ho)
  simp only [remove_eq, found]
  rw [filter_insertSorted (by simp), rest]

theorem Ordered.remove (ordered : memory.Ordered) {base : UInt32}
    (h : memory.remove base = .ok (area, next)) : next.Ordered := by
  rw [remove_eq] at h
  split at h
  · cases h
    exact ⟨ordered.separate.filter _, fun a ha => ordered.filled a (List.mem_filter.mp ha |>.1)⟩
  · cases h

end GuestMemory

/-- What can happen to a table of areas: changes to the table, and accesses to what is in it. -/
inductive TableChange where
  | add (area : Area)
  | remove (base : UInt32)
  | reset
  | load (addr : UInt32) (count : Nat) (mode : Privilege)
  | store (addr : UInt32) (data : List UInt8) (mode : Privilege)

namespace GuestMemory

/-- One change. A change that fails leaves what it hands back. -/
def change (memory : GuestMemory) : TableChange → GuestMemory
  | .add area => (memory.tryAdd area).2
  | .remove base => (memory.tryRemove base).2
  | .reset => empty
  | .load addr count mode => (memory.tryLoad addr count mode).2
  | .store addr data mode => (memory.tryStore addr data mode).2

def changeAll (memory : GuestMemory) (changes : List TableChange) : GuestMemory :=
  changes.foldl change memory

variable {memory next : GuestMemory}

theorem Ordered.change (ordered : memory.Ordered) (c : TableChange) :
    (memory.change c).Ordered := by
  cases c with
  | add area =>
    rw [GuestMemory.change, tryAdd_eq]
    cases h : memory.add area with
    | error fault => exact ordered
    | ok next => exact ordered.add h
  | remove base =>
    rw [GuestMemory.change, tryRemove_eq]
    cases h : memory.remove base with
    | error fault => exact ordered
    | ok removed => exact ordered.remove h
  | reset => exact ordered_empty
  | load addr count mode =>
    rw [GuestMemory.change, tryLoad_eq]
    cases h : memory.load addr count mode with
    | error fault => exact ordered
    | ok loaded => exact ordered.of_layout (ordered.layout_load h)
  | store addr data mode =>
    rw [GuestMemory.change, tryStore_eq]
    cases h : memory.store addr data mode with
    | error fault => exact ordered
    | ok next => exact ordered.of_layout (ordered.layout_store h)

theorem Ordered.changeAll (ordered : memory.Ordered) (changes : List TableChange) :
    (memory.changeAll changes).Ordered := by
  induction changes generalizing memory with
  | nil => exact ordered
  | cons c changes ih => exact ih (ordered.change c)

theorem Ordered.disjoint_all_iff (ordered : memory.Ordered) {area : Area}
    (filled : area.isEmpty = false) :
    (∀ other ∈ memory.areas, Disjoint area.addresses other.addresses) ↔
      ∀ other ∈ memory.areas, area.stop ≤ other.base.toNat ∨ other.stop ≤ area.base.toNat :=
  forall₂_congr fun other ho => Area.disjoint_iff filled (ordered.filled other ho)

/-- Whatever is done to an empty table, the areas in it are not empty, are known by their bases and
share no address; an area is added exactly when it is not empty and shares no address with those
that are there, and removing it again restores the table; and looking an address up answers the
area that holds it. -/
theorem area_table_laws (changes : List TableChange) :
    let memory := empty.changeAll changes
    (∀ area ∈ memory.areas,
      0 < area.len.toNat ∧ memory.areas.find? (·.base = area.base) = some area) ∧
    memory.areas.Pairwise (fun a b => Disjoint a.addresses b.addresses) ∧
    (∀ area, (∃ next, memory.add area = .ok next) ↔
      0 < area.len.toNat ∧ ∀ other ∈ memory.areas, Disjoint area.addresses other.addresses) ∧
    (∀ area next, memory.add area = .ok next →
      memory.change (.add area) = next ∧ next.areas.Perm (area :: memory.areas) ∧
        next.remove area.base = .ok (area, memory)) ∧
    (∀ area fault, memory.add area = .error fault → memory.change (.add area) = memory) ∧
    (∀ addr area, memory.find? addr = some area ↔
      (area ∈ memory.areas ∧ addr.toNat ∈ area.addresses) ∧
        ∀ other ∈ memory.areas, addr.toNat ∈ other.addresses → other = area) ∧
    (∀ addr, memory.find? addr = none ↔ ∀ area ∈ memory.areas, addr.toNat ∉ area.addresses) := by
  intro memory
  have ordered : memory.Ordered := ordered_empty.changeAll changes
  refine ⟨fun area ha => ?_, ordered.disjoint, fun area => ?_, fun area next h => ?_,
    fun area fault h => ?_, fun addr area => ?_, fun addr => ordered.find?_eq_none_iff⟩
  · exact ⟨Area.isEmpty_eq_false_iff.mp (ordered.filled area ha), ordered.find?_base ha⟩
  · rw [← Area.isEmpty_eq_false_iff]
    constructor
    · rintro ⟨next, h⟩
      obtain ⟨filled, apart, _⟩ := ordered.add_eq_ok_iff.mp h
      exact ⟨filled, (ordered.disjoint_all_iff filled).mpr apart⟩
    · rintro ⟨filled, apart⟩
      exact ⟨_, ordered.add_eq_ok_iff.mpr ⟨filled, (ordered.disjoint_all_iff filled).mp apart, rfl⟩⟩
  · refine ⟨by rw [change, tryAdd_eq, h], ?_, ordered.remove_add h⟩
    obtain ⟨_, _, rfl⟩ := ordered.add_eq_ok_iff.mp h
    exact insertSorted_perm area memory.areas
  · rw [change, tryAdd_eq, h]
  · rw [ordered.find?_eq_some_iff]
    refine ⟨fun h => ⟨h, fun other ho inside => ?_⟩, fun h => h.1⟩
    exact ordered.eq_of_mem_addresses ho h.1 inside h.2

end GuestMemory

end AtariTos

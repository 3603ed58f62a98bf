import AtariTos.Memory.Access
import Mathlib.Order.CompletePartialOrder
import Mathlib.Order.Interval.Set.Disjoint

namespace AtariTos

namespace Area

/-- The addresses of an area, also those that no longword reaches. -/
def addresses (a : Area) : Set Nat :=
  Set.Ico a.base.toNat a.stop

theorem base_le_stop (a : Area) : a.base.toNat ≤ a.stop :=
  Nat.le_add_right _ _

theorem base_lt_stop {a : Area} (h : a.isEmpty = false) : a.base.toNat < a.stop := by
  have positive : a.len ≠ 0 := by simpa [isEmpty] using h
  have : a.len.toNat ≠ 0 := fun zero => positive (UInt32.toNat_inj.mp zero)
  unfold stop
  omega

theorem isEmpty_eq_false_iff {a : Area} : a.isEmpty = false ↔ 0 < a.len.toNat := by
  refine ⟨fun h => ?_, fun h => ?_⟩
  · have := base_lt_stop h
    unfold stop at this
    omega
  · have positive : a.len ≠ 0 := fun zero => by simp [zero] at h
    simpa [isEmpty] using positive

theorem contains_iff {a : Area} {addr : UInt32} :
    a.contains addr = true ↔ addr.toNat ∈ a.addresses := by
  simp only [contains, addresses, Bool.and_eq_true, decide_eq_true_eq, UInt32.le_iff_toNat_le,
    Set.mem_Ico]

theorem covers_iff {a : Area} {addr : UInt32} {count : Nat} :
    a.covers addr count = true ↔ addr.toNat ∈ a.addresses ∧ addr.toNat + count ≤ a.stop := by
  rw [covers, Bool.and_eq_true, contains_iff, decide_eq_true_eq]

theorem disjoint_iff {a b : Area} (ha : a.isEmpty = false) (hb : b.isEmpty = false) :
    Disjoint a.addresses b.addresses ↔ a.stop ≤ b.base.toNat ∨ b.stop ≤ a.base.toNat := by
  have := base_lt_stop ha
  have := base_lt_stop hb
  rw [addresses, addresses, Set.Ico_disjoint_Ico]
  omega

theorem toNat_last (a : Area) : a.last.toNat = min a.stop UInt32.size - 1 := by
  have bound : min a.stop UInt32.size - 1 < UInt32.size := by
    have : UInt32.size = 4294967296 := rfl
    omega
  exact Nat.mod_eq_of_lt bound

variable {name : String} {base : UInt32} {bytes : Bytes} {rights : Rights}

theorem len_ofBuffer (small : bytes.size < UInt32.size) :
    (ofBuffer name base bytes rights).len.toNat = bytes.size := by
  have large : UInt32.size = 4294967296 := rfl
  change (min bytes.size 0xffffffff).toUInt32.toNat = _
  rw [Nat.min_eq_left (by omega)]
  exact UInt32.toNat_ofNat_of_lt' small

theorem stop_ofBuffer (small : bytes.size < UInt32.size) :
    (ofBuffer name base bytes rights).stop = base.toNat + bytes.size := by
  rw [stop, len_ofBuffer small]
  rfl

theorem isEmpty_ofBuffer (small : bytes.size < UInt32.size) :
    (ofBuffer name base bytes rights).isEmpty = decide (bytes.size = 0) := by
  have len : (ofBuffer name base bytes rights).len.toNat = bytes.size := len_ofBuffer small
  rw [isEmpty, ← len]
  exact decide_eq_decide.mpr UInt32.toNat_inj.symm

end Area

namespace GuestMemory

/-- Areas in ascending order, none of them empty, each ending before the next one starts. -/
structure Ordered (memory : GuestMemory) : Prop where
  separate : memory.areas.Pairwise fun a b => a.stop ≤ b.base.toNat
  filled : ∀ a ∈ memory.areas, a.isEmpty = false

variable {memory next : GuestMemory} {area : Area} {addr : UInt32}

theorem ordered_empty : empty.Ordered :=
  ⟨List.Pairwise.nil, fun _ h => absurd h List.not_mem_nil⟩

theorem Ordered.disjoint (ordered : memory.Ordered) :
    memory.areas.Pairwise fun a b => Disjoint a.addresses b.addresses := by
  refine ordered.separate.imp_of_mem fun {a b} ha hb h => ?_
  exact (Area.disjoint_iff (ordered.filled a ha) (ordered.filled b hb)).mpr (.inl h)

theorem Ordered.apart (ordered : memory.Ordered) {a b : Area} (ha : a ∈ memory.areas)
    (hb : b ∈ memory.areas) : a = b ∨ a.stop ≤ b.base.toNat ∨ b.stop ≤ a.base.toNat := by
  have forward : memory.areas.Pairwise fun a b =>
      a = b ∨ a.stop ≤ b.base.toNat ∨ b.stop ≤ a.base.toNat :=
    ordered.separate.imp fun h => .inr (.inl h)
  have backward : memory.areas.Pairwise fun a b =>
      b = a ∨ b.stop ≤ a.base.toNat ∨ a.stop ≤ b.base.toNat :=
    ordered.separate.imp fun h => .inr (.inr h)
  exact forward.forall_of_forall_of_flip (fun _ _ => .inl rfl) backward ha hb

theorem Ordered.eq_of_mem_addresses (ordered : memory.Ordered) {a b : Area}
    (ha : a ∈ memory.areas) (hb : b ∈ memory.areas) {n : Nat} (hna : n ∈ a.addresses)
    (hnb : n ∈ b.addresses) : a = b := by
  rcases ordered.apart ha hb with eq | before | after
  · exact eq
  · have := hna.2
    have := hnb.1
    omega
  · have := hnb.2
    have := hna.1
    omega

theorem Ordered.eq_of_base (ordered : memory.Ordered) {a b : Area} (ha : a ∈ memory.areas)
    (hb : b ∈ memory.areas) (h : a.base = b.base) : a = b :=
  ordered.eq_of_mem_addresses ha hb ⟨Nat.le_refl _, Area.base_lt_stop (ordered.filled a ha)⟩
    ⟨h ▸ Nat.le_refl _, h ▸ Area.base_lt_stop (ordered.filled b hb)⟩

theorem Ordered.find?_base (ordered : memory.Ordered) (h : area ∈ memory.areas) :
    memory.areas.find? (·.base = area.base) = some area := by
  cases found : memory.areas.find? (·.base = area.base) with
  | none => simpa using List.find?_eq_none.mp found area h
  | some other =>
    have same : other.base = area.base := by simpa using List.find?_some found
    rw [ordered.eq_of_base (List.mem_of_find?_eq_some found) h same]

theorem Ordered.of_nearest? (ordered : memory.Ordered) (h : memory.nearest? addr = some area) :
    area ∈ memory.areas ∧ area.base ≤ addr ∧
      ∀ other ∈ memory.areas, other.base ≤ addr → other = area ∨ other.stop ≤ area.base.toNat := by
  obtain ⟨lower, split⟩ := List.getLast?_eq_some_iff.mp h
  have member (a : Area) : a ∈ lower ++ [area] ↔ a ∈ memory.areas ∧ a.base ≤ addr := by
    rw [← split, List.mem_filter, decide_eq_true_eq]
  have here := (member area).mp (by simp)
  refine ⟨here.1, here.2, fun other ho below => ?_⟩
  have separate := ordered.separate.filter (·.base ≤ addr)
  rw [split] at separate
  rcases List.mem_append.mp ((member other).mpr ⟨ho, below⟩) with low | last
  · exact .inr ((List.pairwise_append.mp separate).2.2 other low area (by simp))
  · exact .inl (List.mem_singleton.mp last)

theorem exists_nearest? (h : area ∈ memory.areas) (below : area.base ≤ addr) :
    ∃ found, memory.nearest? addr = some found := by
  refine Option.ne_none_iff_exists'.mp fun none => ?_
  have none := List.getLast?_eq_none_iff.mp none
  exact absurd (decide_eq_true below) (List.filter_eq_nil_iff.mp none area h)

/-- The one candidate that is looked at is the area of the address, if there is one. -/
theorem Ordered.find?_eq_some_iff (ordered : memory.Ordered) :
    memory.find? addr = some area ↔ area ∈ memory.areas ∧ addr.toNat ∈ area.addresses := by
  rw [find?, Option.filter_eq_some_iff, Area.contains_iff]
  refine and_congr_left fun inside => ⟨fun h => (ordered.of_nearest? h).1, fun h => ?_⟩
  obtain ⟨found, hf⟩ := exists_nearest? h (UInt32.le_iff_toNat_le.mpr inside.1)
  obtain ⟨_, low, below⟩ := ordered.of_nearest? hf
  rcases below area h (UInt32.le_iff_toNat_le.mpr inside.1) with rfl | before
  · exact hf
  · have := inside.2
    have := UInt32.le_iff_toNat_le.mp low
    omega

theorem Ordered.find?_eq_none_iff (ordered : memory.Ordered) :
    memory.find? addr = none ↔ ∀ a ∈ memory.areas, addr.toNat ∉ a.addresses := by
  refine ⟨fun h a ha inside => ?_, fun h => ?_⟩
  · rw [ordered.find?_eq_some_iff.mpr ⟨ha, inside⟩] at h
    cases h
  · cases found : memory.find? addr with
    | none => rfl
    | some a =>
      obtain ⟨ha, inside⟩ := ordered.find?_eq_some_iff.mp found
      exact absurd inside (h a ha)

end GuestMemory

end AtariTos

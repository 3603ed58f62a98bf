import AtariTos.Proofs.AreaTable

namespace AtariTos

/-- An area without its storage. -/
structure Outline where
  name : String
  base : UInt32
  len : UInt32
  rights : Rights
deriving DecidableEq, Repr

namespace Area

def outline (a : Area) : Outline :=
  ⟨a.name, a.base, a.len, a.rights⟩

variable {a b : Area}

theorem base_eq_of_outline (h : a.outline = b.outline) : a.base = b.base :=
  congrArg Outline.base h

theorem rights_eq_of_outline (h : a.outline = b.outline) : a.rights = b.rights :=
  congrArg Outline.rights h

theorem stop_eq_of_outline (h : a.outline = b.outline) : a.stop = b.stop := by
  have base := base_eq_of_outline h
  have len : a.len = b.len := congrArg Outline.len h
  rw [stop, stop, base, len]

theorem addresses_eq_of_outline (h : a.outline = b.outline) : a.addresses = b.addresses := by
  rw [addresses, addresses, base_eq_of_outline h, stop_eq_of_outline h]

theorem outline_load (a : Area) (addr : UInt32) (count : Nat) :
    (a.load addr count).2.outline = a.outline := by
  obtain ⟨name, base, rights, storage⟩ := a
  cases storage <;> rfl

theorem outline_store (a : Area) (addr : UInt32) (data : List UInt8) :
    (a.store addr data).outline = a.outline := by
  simp only [outline, store, len, Storage.len_store]

end Area

namespace GuestMemory

def layout (memory : GuestMemory) : List Outline :=
  memory.areas.map Area.outline

variable {memory next : GuestMemory} {area : Area} {addr : UInt32} {mode : Privilege}

theorem ordered_iff_layout : memory.Ordered ↔
    (memory.layout.Pairwise fun a b => a.base.toNat + a.len.toNat ≤ b.base.toNat) ∧
      ∀ a ∈ memory.layout, a.len ≠ 0 := by
  rw [layout, List.pairwise_map, List.forall_mem_map]
  refine ⟨fun h => ⟨h.separate, fun a ha => ?_⟩, fun h => ⟨h.1, fun a ha => ?_⟩⟩
  · simpa [Area.isEmpty, Area.outline] using h.filled a ha
  · simpa [Area.isEmpty, Area.outline] using h.2 a ha

theorem Ordered.of_layout (ordered : memory.Ordered) (same : next.layout = memory.layout) :
    next.Ordered := by
  rw [ordered_iff_layout] at ordered ⊢
  rwa [same]

theorem exists_of_layout (same : next.layout = memory.layout) (h : area ∈ memory.areas) :
    ∃ a ∈ next.areas, a.outline = area.outline := by
  have : area.outline ∈ next.layout := same ▸ List.mem_map_of_mem h
  exact List.mem_map.mp this

theorem layout_modify {base : UInt32} {change : Area → Area}
    (kept : ∀ a ∈ memory.areas, a.base = base → (change a).outline = a.outline) :
    (memory.modify base change).layout = memory.layout := by
  rw [layout, layout, modify, List.map_map]
  refine List.map_congr_left fun a ha => ?_
  by_cases here : a.base = base
  · simp [here, kept a ha here]
  · simp [here]

theorem Ordered.layout_modify_const (ordered : memory.Ordered) (h : area ∈ memory.areas)
    {changed : Area} (kept : changed.outline = area.outline) :
    (memory.modify area.base fun _ => changed).layout = memory.layout :=
  layout_modify fun _ ha same => ordered.eq_of_base ha h same ▸ kept

theorem Ordered.locate_of_covers (ordered : memory.Ordered) {count : Nat} {access : Access}
    (member : area ∈ memory.areas) (inside : addr.toNat ∈ area.addresses)
    (fits : addr.toNat + count ≤ area.stop) :
    memory.locate addr count access mode =
      if area.rights.permits access mode then .ok area else .error (.denied addr access mode) := by
  rw [locate, ordered.find?_eq_some_iff.mpr ⟨member, inside⟩]
  dsimp only
  rw [Area.covers_iff.mpr ⟨inside, fits⟩]
  rfl

theorem Ordered.locate_of_uncovered (ordered : memory.Ordered) {count : Nat} {access : Access}
    (outside : ∀ a ∈ memory.areas, addr.toNat ∈ a.addresses → ¬addr.toNat + count ≤ a.stop) :
    memory.locate addr count access mode = .error (.unmapped addr) := by
  rw [locate]
  cases found : memory.find? addr with
  | none => rfl
  | some area =>
    obtain ⟨member, inside⟩ := ordered.find?_eq_some_iff.mp found
    have uncovered : area.covers addr count = false := by
      rw [Area.covers, decide_eq_false (outside area member inside), Bool.and_false]
    dsimp only
    rw [uncovered]
    rfl

/-- An access is served by the one area that holds all its addresses and grants the right. -/
theorem Ordered.locate_eq_ok_iff (ordered : memory.Ordered) {count : Nat} {access : Access} :
    memory.locate addr count access mode = .ok area ↔
      area ∈ memory.areas ∧ addr.toNat ∈ area.addresses ∧ addr.toNat + count ≤ area.stop ∧
        area.rights.permits access mode = true := by
  constructor
  · intro h
    unfold locate at h
    split at h
    · cases h
    next other found =>
      obtain ⟨member, inside⟩ := ordered.find?_eq_some_iff.mp found
      split at h
      · cases h
      next covered =>
        split at h
        next allowed =>
          cases h
          rw [Bool.not_eq_true', Bool.not_eq_false, Area.covers_iff] at covered
          exact ⟨member, inside, covered.2, allowed⟩
        · cases h
  · rintro ⟨member, inside, fits, allowed⟩
    rw [ordered.locate_of_covers member inside fits, if_pos allowed]

theorem Ordered.store_eq_ok (ordered : memory.Ordered) {data : List UInt8}
    (h : memory.store addr data mode = .ok next) :
    (data = [] ∧ next = memory) ∨
      ∃ area ∈ memory.areas, addr.toNat ∈ area.addresses ∧ addr.toNat + data.length ≤ area.stop ∧
        area.rights.mayWrite mode = true ∧
        next = memory.modify area.base fun a => a.store addr data := by
  rw [store_cases] at h
  split at h
  next empty =>
    cases h
    exact .inl ⟨List.isEmpty_iff.mp empty, rfl⟩
  next =>
    split at h
    · cases h
    next area located =>
      cases h
      obtain ⟨member, inside, fits, allowed⟩ := ordered.locate_eq_ok_iff.mp located
      exact .inr ⟨area, member, inside, fits, allowed, rfl⟩

theorem Ordered.layout_store (ordered : memory.Ordered) {data : List UInt8}
    (h : memory.store addr data mode = .ok next) : next.layout = memory.layout := by
  rcases ordered.store_eq_ok h with ⟨_, rfl⟩ | ⟨area, _, _, _, _, rfl⟩
  · rfl
  · exact layout_modify fun a _ _ => a.outline_store addr data

theorem Ordered.load_eq_ok (ordered : memory.Ordered) {count : Nat} {values : List UInt8}
    (h : memory.load addr count mode = .ok (values, next)) :
    (count = 0 ∧ values = [] ∧ next = memory) ∨
      ∃ area ∈ memory.areas, addr.toNat ∈ area.addresses ∧ addr.toNat + count ≤ area.stop ∧
        area.rights.mayRead mode = true ∧ values = (area.load addr count).1 ∧
        (next = memory ∨ area.isBuffer = false ∧
          next = memory.modify area.base fun _ => (area.load addr count).2) := by
  rw [load_cases] at h
  split at h
  next none =>
    cases h
    exact .inl ⟨none, rfl, rfl⟩
  next =>
    split at h
    · cases h
    next area located =>
      obtain ⟨member, inside, fits, allowed⟩ := ordered.locate_eq_ok_iff.mp located
      split at h
      · cases h
        exact .inr ⟨area, member, inside, fits, allowed, rfl, .inl rfl⟩
      next device =>
        cases h
        refine .inr ⟨area, member, inside, fits, allowed, rfl, .inr ⟨?_, rfl⟩⟩
        simpa using device

theorem Ordered.layout_load (ordered : memory.Ordered) {count : Nat} {values : List UInt8}
    (h : memory.load addr count mode = .ok (values, next)) : next.layout = memory.layout := by
  rcases ordered.load_eq_ok h with ⟨_, _, rfl⟩ | ⟨area, member, _, _, _, _, rfl | ⟨_, rfl⟩⟩
  · rfl
  · rfl
  · exact ordered.layout_modify_const member (area.outline_load addr count)

end GuestMemory

end AtariTos

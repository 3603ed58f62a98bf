import AtariTos.Proofs.FirstFit

namespace AtariTos

namespace Heap

variable {heap next : Heap} {a b : Block} {base base' len len' : UInt32}

theorem free_of_block? (found : heap.block? base = some b) :
    heap.free base = .ok (b, heap.remove base) := by
  rw [free_eq, found]

theorem Tidy.free_of_mem (tidy : heap.Tidy) (member : b ∈ heap.blocks) :
    heap.free b.base = .ok (b, heap.remove b.base) :=
  free_of_block? (tidy.block?_eq_some_iff.mpr ⟨member, rfl⟩)

theorem remove_comm (heap : Heap) (base base' : UInt32) :
    (heap.remove base).remove base' = (heap.remove base').remove base := by
  rw [remove, remove, remove, remove, List.filter_comm]

theorem Tidy.free_allocate (tidy : heap.Tidy) (some : (heap.allocate len).1 ≠ 0) :
    (heap.allocate len).2.free (heap.allocate len).1 = .ok (⟨(heap.allocate len).1, len⟩, heap) := by
  have asked : len ≠ 0 := by
    rintro rfl
    exact some rfl
  have tidy' := tidy.allocate len
  rcases tidy.allocate_cases asked with ⟨_, full⟩ | ⟨base, before, after, _, split, room⟩
  · rw [full] at some
    exact absurd rfl some
  · rw [room] at tidy' ⊢
    have freed := tidy'.free_of_mem (b := ⟨base, len⟩) (List.mem_append_right _ List.mem_cons_self)
    rw [freed, tidy'.remove_of_split rfl]
    dsimp only
    rw [← split]

theorem Tidy.mem_remove (tidy : heap.Tidy) (ha : a ∈ heap.blocks) (hb : b ∈ heap.blocks)
    (other : a ≠ b) : b ∈ (heap.remove a.base).blocks :=
  List.mem_filter.mpr
    ⟨hb, decide_eq_true fun same => other (tidy.eq_of_base ha hb same.symm)⟩

theorem Tidy.free_free (tidy : heap.Tidy) (ha : a ∈ heap.blocks) (hb : b ∈ heap.blocks)
    (other : a ≠ b) :
    heap.free a.base = .ok (a, heap.remove a.base) ∧
      (heap.remove a.base).free b.base = .ok (b, (heap.remove a.base).remove b.base) :=
  ⟨tidy.free_of_mem ha, (tidy.remove a.base).free_of_mem (tidy.mem_remove ha hb other)⟩

theorem resize_resize (heap : Heap) (base len len' : UInt32) :
    (heap.resize base len).resize base len' = heap.resize base len' := by
  simp only [resize, List.map_map]
  congr 1
  refine List.map_congr_left fun c _ => ?_
  dsimp only [Function.comp_apply]
  split
  · rfl
  · rfl

theorem block?_resize (found : heap.block? base = some b) (len : UInt32) :
    (heap.resize base len).block? base = some { b with len } := by
  have here : b.base = base := by simpa using List.find?_some found
  have bases : ((fun c : Block => decide (c.base = base)) ∘
      fun c => if c.base = base then { c with len } else c) = fun c => decide (c.base = base) := by
    funext c
    dsimp only [Function.comp_apply]
    split <;> rfl
  rw [block?] at found ⊢
  rw [resize, List.find?_map, bases, found, Option.map_some, if_pos here]

theorem shrink_call_shrink (some : 0 < len') (shorter : len' ≤ len) :
    (heap.call (.shrink base len)).shrink base len' = heap.shrink base len' := by
  have some' : len ≠ 0 := (UInt32.ne_of_lt (UInt32.lt_of_lt_of_le some shorter)).symm
  rw [call, tryShrink_eq]
  cases found : heap.block? base with
  | none =>
    have refused : heap.shrink base len = .error (.noSuchBlock base) := by rw [shrink_eq, found]
    rw [refused]
  | some b =>
    by_cases grows : b.len < len
    · have refused : heap.shrink base len = .error (.cannotGrow base b.len len) := by
        rw [shrink_eq, found]
        dsimp only
        rw [if_neg some', if_pos grows]
      rw [refused]
    · have cut : heap.shrink base len = .ok (heap.resize base len) := by
        rw [shrink_eq, found]
        dsimp only
        rw [if_neg some', if_neg grows]
      have fits : ¬b.len < len' := fun less =>
        grows (UInt32.lt_of_lt_of_le less shorter)
      rw [cut]
      change (heap.resize base len).shrink base len' = _
      rw [shrink_eq, shrink_eq, found, block?_resize found]
      dsimp only
      have asked : len' ≠ 0 := (UInt32.ne_of_lt some).symm
      rw [if_neg asked, if_neg asked, if_neg fits, if_neg (UInt32.not_lt.mpr shorter),
        resize_resize]

/-- Where fewer addresses are taken the biggest gap is no smaller: whatever fits still does. -/
theorem Tidy.biggestGap_le (tidy : heap.Tidy) (tidy' : next.Tidy) (span : next.span = heap.span)
    (covered : ∀ b ∈ next.blocks, ∃ a ∈ heap.blocks, b.addresses ⊆ a.addresses) :
    heap.biggestGap ≤ next.biggestGap := by
  by_contra smaller
  have room : next.biggestGap < heap.biggestGap := Nat.lt_of_not_le smaller
  obtain ⟨start, fits⟩ := tidy.exists_fits_iff.mpr (lt_biggestGap_iff.mp room)
  have fits' : next.Fits next.biggestGap start := by
    intro n inside
    obtain ⟨above, below, apart⟩ := fits n inside
    rw [← span] at above below
    refine ⟨above, below, fun b hb held => ?_⟩
    obtain ⟨a, ha, within⟩ := covered b hb
    exact apart a ha (within held)
  exact lt_irrefl _ (lt_biggestGap_iff.mpr (tidy'.exists_fits_iff.mp ⟨start, fits'⟩))

theorem Tidy.biggestGap_le_of_free (tidy : heap.Tidy) (h : heap.free base = .ok (b, next)) :
    heap.biggestGap ≤ next.biggestGap := by
  refine tidy.biggestGap_le (tidy.free h) (span_free h) fun c hc => ?_
  obtain ⟨before, after, split, _, rfl⟩ := tidy.free_eq_ok h
  refine ⟨c, ?_, subset_rfl⟩
  rw [split]
  exact (List.sublist_cons_self b after).append_left before |>.subset hc

theorem Tidy.biggestGap_le_of_shrink (tidy : heap.Tidy) (h : heap.shrink base len = .ok next) :
    heap.biggestGap ≤ next.biggestGap := by
  refine tidy.biggestGap_le (tidy.shrink h) (span_shrink h) fun c hc => ?_
  obtain ⟨b, member, here, shorter⟩ := tidy.exists_shrink_iff.mp ⟨next, h⟩
  obtain ⟨before, b', after, split, here', rfl⟩ := tidy.shrink_eq_ok h
  obtain rfl : b' = b :=
    tidy.eq_of_base (by simp [split]) member (here'.trans here.symm)
  have cut : (⟨base, len⟩ : Block).addresses ⊆ b'.addresses := by
    have := UInt32.le_iff_toNat_le.mp shorter
    refine Set.Ico_subset_Ico ?_ ?_
    · rw [here]
    · simp only [Block.stop, here]
      omega
  rcases List.mem_append.mp hc with hc | behind
  · rcases List.mem_append.mp hc with ahead | hc
    · exact ⟨c, by simp [split, ahead], subset_rfl⟩
    · have same : c = ⟨base, len⟩ := by
        split at hc
        · cases hc
        · exact List.mem_singleton.mp hc
      exact ⟨b', member, same ▸ cut⟩
  · exact ⟨c, by simp [split, behind], subset_rfl⟩

theorem Tidy.biggestGap_allocate_le (tidy : heap.Tidy) (len : UInt32) :
    (heap.allocate len).2.biggestGap ≤ heap.biggestGap := by
  refine (tidy.allocate len).biggestGap_le tidy (heap.span_allocate len).symm fun b hb => ?_
  refine ⟨b, ?_, subset_rfl⟩
  by_cases asked : len = 0
  · rwa [Heap.allocate, if_pos asked]
  · rcases tidy.allocate_cases asked with ⟨_, full⟩ | ⟨base, before, after, _, split, room⟩
    · rwa [full]
    · rw [split] at hb
      rw [room]
      exact (List.sublist_cons_self _ after).append_left before |>.subset hb

/-- Whatever has been asked of a heap before: a block that has just been allocated can be freed, and
then the heap is as it was; two blocks can be freed in either order, with one result; of two cuts
of one block the first leaves no trace if the second goes below it; and the biggest gap does not
become smaller when a block is freed or cut down, nor bigger when one is allocated. -/
theorem successive_calls (span : HeapSpan) (calls : List HeapCall) :
    let heap := (ofSpan span).callAll calls
    (∀ len base next, heap.allocate len = (base, next) → base ≠ 0 →
      next.free base = .ok (⟨base, len⟩, heap)) ∧
    (∀ a ∈ heap.blocks, ∀ b ∈ heap.blocks, a ≠ b → ∃ withoutA withoutB last,
      heap.free a.base = .ok (a, withoutA) ∧ withoutA.free b.base = .ok (b, last) ∧
      heap.free b.base = .ok (b, withoutB) ∧ withoutB.free a.base = .ok (a, last)) ∧
    (∀ base len len', 0 < len' → len' ≤ len →
      (heap.call (.shrink base len)).shrink base len' = heap.shrink base len') ∧
    (∀ base b next, heap.free base = .ok (b, next) → heap.biggestGap ≤ next.biggestGap) ∧
    (∀ base len next, heap.shrink base len = .ok next → heap.biggestGap ≤ next.biggestGap) ∧
    ∀ len, (heap.allocate len).2.biggestGap ≤ heap.biggestGap := by
  intro heap
  obtain ⟨tidy, -⟩ : heap.Tidy ∧ heap.span = span := (tidy_ofSpan span).callAll calls
  refine ⟨fun len base next h some => ?_, fun a ha b hb other => ?_,
    fun base len len' some shorter => shrink_call_shrink some shorter,
    fun base b next h => tidy.biggestGap_le_of_free h,
    fun base len next h => tidy.biggestGap_le_of_shrink h,
    fun len => tidy.biggestGap_allocate_le len⟩
  · have freed (some : (heap.allocate len).1 ≠ 0) := tidy.free_allocate some
    rw [h] at freed
    exact freed some
  · obtain ⟨first, second⟩ := tidy.free_free ha hb other
    obtain ⟨first', second'⟩ := tidy.free_free hb ha other.symm
    rw [heap.remove_comm] at second'
    exact ⟨_, _, _, first, second, first', second'⟩

-- two blocks, freed in either order, leave one gap as big as the span
example :
    let heap := (ofSpan ⟨0x910, 0xa00⟩).callAll [.allocate 0x10, .allocate 0x20]
    heap.blocks = [⟨0x910, 0x10⟩, ⟨0x920, 0x20⟩] ∧ heap.biggestGap = 0xc0 ∧
      (heap.callAll [.free 0x910, .free 0x920]).biggestGap = 0xf0 ∧
      heap.callAll [.free 0x920, .free 0x910] = heap.callAll [.free 0x910, .free 0x920] ∧
      (heap.call (.shrink 0x920 8)).shrink 0x920 4 = heap.shrink 0x920 4 := by
  decide

end Heap

end AtariTos

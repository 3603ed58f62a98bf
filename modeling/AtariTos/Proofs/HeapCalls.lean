import AtariTos.Proofs.HeapTiles

namespace AtariTos

inductive HeapCall where
  | allocate (len : UInt32)
  | free (base : UInt32)
  | shrink (base len : UInt32)
deriving DecidableEq, Repr

namespace Heap

/-- One call. A call that fails leaves what it hands back. -/
def call (heap : Heap) : HeapCall → Heap
  | .allocate len => (heap.allocate len).2
  | .free base => (heap.tryFree base).2
  | .shrink base len => (heap.tryShrink base len).2

def callAll (heap : Heap) (calls : List HeapCall) : Heap :=
  calls.foldl call heap

variable {heap next : Heap} {base len : UInt32} {b : Block}

theorem place_eq_none_iff {top start : Nat} {blocks : List Block} :
    place top len start blocks = none ↔ ∀ g ∈ gapsFrom top start blocks, g.len ≤ len.toNat := by
  induction blocks generalizing start with
  | nil =>
    rw [place, gapsFrom]
    split
    next fits =>
      simp only [reduceCtorEq, List.mem_singleton, forall_eq, Stretch.len, false_iff]
      omega
    next full =>
      simp only [List.mem_singleton, forall_eq, Stretch.len, true_iff]
      omega
  | cons b rest ih =>
    rw [place, gapsFrom]
    split
    next fits =>
      simp only [reduceCtorEq, List.mem_cons, forall_eq_or_imp, Stretch.len, false_iff, not_and]
      omega
    next full =>
      simp only [Option.map_eq_none_iff, ih, List.mem_cons, forall_eq_or_imp, Stretch.len]
      exact ⟨fun rest => ⟨by omega, rest⟩, fun all => all.2⟩

theorem allocate_of_full (full : len = 0 ∨ ∀ g ∈ heap.gaps, g.len ≤ len.toNat) :
    heap.allocate len = (0, heap) := by
  rcases full with nothing | full
  · rw [allocate, if_pos nothing]
  · have nowhere : place heap.span.top.toNat len heap.span.floor.toNat heap.blocks = none :=
      place_eq_none_iff.mpr full
    rw [allocate, nowhere]
    split <;> rfl

theorem Tidy.allocate_of_room (tidy : heap.Tidy) (asked : len ≠ 0)
    (room : ∃ g ∈ heap.gaps, len.toNat < g.len) :
    ∃ before after base, heap.blocks = before ++ after ∧
      heap.allocate len = (base, { heap with blocks := before ++ ⟨base, len⟩ :: after }) := by
  cases placed : place heap.span.top.toNat len heap.span.floor.toNat heap.blocks with
  | none =>
    obtain ⟨g, hg, larger⟩ := room
    have full := place_eq_none_iff.mp placed g hg
    omega
  | some found =>
    obtain ⟨base, blocks⟩ := found
    obtain ⟨before, after, split, rfl, _⟩ :=
      place_eq_some heap.span.top.toNat_lt_size tidy.separate tidy.inside placed
    refine ⟨before, after, base, split, ?_⟩
    rw [Heap.allocate, if_neg asked, placed]

theorem Tidy.bases (tidy : heap.Tidy) : heap.blocks.Pairwise fun a b => a.base < b.base := by
  refine tidy.separate.imp_of_mem fun {a b} ha _ before => ?_
  have filled := tidy.filled a ha
  rw [Block.stop] at before
  rw [UInt32.lt_iff_toNat_lt]
  omega

theorem exists_block?_iff :
    (∃ b, heap.block? base = some b) ↔ ∃ b ∈ heap.blocks, b.base = base := by
  rw [← Option.isSome_iff_exists, block?, List.find?_isSome]
  simp only [decide_eq_true_eq]

theorem Tidy.block?_eq_some_iff (tidy : heap.Tidy) :
    heap.block? base = some b ↔ b ∈ heap.blocks ∧ b.base = base := by
  constructor
  · intro found
    exact ⟨List.mem_of_find?_eq_some found, by simpa using List.find?_some found⟩
  · rintro ⟨member, here⟩
    obtain ⟨c, found⟩ := exists_block?_iff.mpr ⟨b, member, here⟩
    have there : c.base = base := by simpa using List.find?_some found
    have same := tidy.eq_of_base (List.mem_of_find?_eq_some found) member (there.trans here.symm)
    rw [found, same]

theorem Tidy.others_of_split (tidy : heap.Tidy) {before after : List Block}
    (split : heap.blocks = before ++ b :: after) :
    (∀ c ∈ before, c.base ≠ b.base) ∧ ∀ c ∈ after, c.base ≠ b.base := by
  have bases := tidy.bases
  rw [split] at bases
  obtain ⟨_, behind, ahead⟩ := List.pairwise_append.mp bases
  constructor
  · intro c hc same
    have below := ahead c hc b (by simp)
    rw [same] at below
    exact UInt32.lt_irrefl _ below
  · intro c hc same
    have above := (List.pairwise_cons.mp behind).1 c hc
    rw [same] at above
    exact UInt32.lt_irrefl _ above

theorem Tidy.split_at (tidy : heap.Tidy) (found : heap.block? base = some b) :
    ∃ before after, heap.blocks = before ++ b :: after ∧ b.base = base ∧
      (∀ c ∈ before, c.base ≠ base) ∧ ∀ c ∈ after, c.base ≠ base := by
  obtain ⟨member, rfl⟩ := tidy.block?_eq_some_iff.mp found
  obtain ⟨before, after, split⟩ := List.append_of_mem member
  obtain ⟨low, high⟩ := tidy.others_of_split split
  exact ⟨before, after, split, rfl, low, high⟩

theorem Tidy.remove_of_split (tidy : heap.Tidy) {before after : List Block}
    (split : heap.blocks = before ++ b :: after) :
    heap.remove b.base = { heap with blocks := before ++ after } := by
  obtain ⟨low, high⟩ := tidy.others_of_split split
  have kept : ∀ others : List Block, (∀ c ∈ others, c.base ≠ b.base) →
      others.filter (·.base ≠ b.base) = others :=
    fun others away => List.filter_eq_self.mpr fun c hc => decide_eq_true (away c hc)
  have gone : (b :: after).filter (·.base ≠ b.base) = after.filter (·.base ≠ b.base) :=
    List.filter_cons_of_neg (by simp)
  rw [Heap.remove, split, List.filter_append, gone, kept before low, kept after high]

theorem Tidy.blocks_resize (tidy : heap.Tidy) (found : heap.block? base = some b)
    (len : UInt32) : ∃ before after, heap.blocks = before ++ b :: after ∧ b.base = base ∧
      (heap.resize base len).blocks = before ++ ⟨base, len⟩ :: after := by
  obtain ⟨before, after, split, here, low, high⟩ := tidy.split_at found
  have kept : ∀ others : List Block, (∀ c ∈ others, c.base ≠ base) →
      others.map (fun c => if c.base = base then { c with len } else c) = others := by
    intro others away
    refine (List.map_congr_left fun c hc => ?_).trans (List.map_id others)
    exact if_neg (away c hc)
  refine ⟨before, after, split, here, ?_⟩
  rw [Heap.resize, split, List.map_append, List.map_cons, kept before low, kept after high, if_pos here,
    here]

theorem Tidy.free_eq_ok (tidy : heap.Tidy) (h : heap.free base = .ok (b, next)) :
    ∃ before after, heap.blocks = before ++ b :: after ∧ b.base = base ∧
      next = { heap with blocks := before ++ after } := by
  rw [free_eq] at h
  split at h
  · cases h
  next c found =>
    cases h
    obtain ⟨before, after, split, rfl, _⟩ := tidy.split_at found
    exact ⟨before, after, split, rfl, tidy.remove_of_split split⟩

theorem exists_free_iff :
    (∃ freed, heap.free base = .ok freed) ↔ ∃ b ∈ heap.blocks, b.base = base := by
  rw [← exists_block?_iff, free_eq]
  cases heap.block? base with
  | none => simp
  | some b => simp

theorem Tidy.shrink_eq_ok (tidy : heap.Tidy) (h : heap.shrink base len = .ok next) :
    ∃ before b after, heap.blocks = before ++ b :: after ∧ b.base = base ∧
      next = { heap with
        blocks := before ++ (if len = 0 then [] else [⟨base, len⟩]) ++ after } := by
  rw [shrink_eq] at h
  split at h
  · cases h
  next b found =>
    split at h
    next nothing =>
      cases h
      obtain ⟨before, after, split, rfl, _⟩ := tidy.split_at found
      refine ⟨before, b, after, split, rfl, ?_⟩
      rw [if_pos nothing, List.append_nil]
      exact tidy.remove_of_split split
    next something =>
      split at h
      · cases h
      next shorter =>
        cases h
        obtain ⟨before, after, split, here, rest⟩ := tidy.blocks_resize found len
        refine ⟨before, b, after, split, here, ?_⟩
        rw [if_neg something, List.append_assoc, List.singleton_append, ← rest]
        rfl

theorem Tidy.exists_shrink_iff (tidy : heap.Tidy) :
    (∃ next, heap.shrink base len = .ok next) ↔
      ∃ b ∈ heap.blocks, b.base = base ∧ len ≤ b.len := by
  have located (b : Block) : b ∈ heap.blocks ∧ b.base = base ∧ len ≤ b.len ↔
      heap.block? base = some b ∧ len ≤ b.len := by
    rw [tidy.block?_eq_some_iff, and_assoc]
  simp only [located, shrink_eq]
  cases heap.block? base with
  | none => simp
  | some b =>
    by_cases nothing : len = 0
    · simp [nothing, UInt32.le_iff_toNat_le]
    · by_cases growing : b.len < len
      · simp [nothing, growing, UInt32.not_le.mpr growing]
      · simp [nothing, growing, UInt32.not_lt.mp growing]

theorem Tidy.call (tidy : heap.Tidy) (c : HeapCall) : (heap.call c).Tidy := by
  cases c with
  | allocate len => exact tidy.allocate len
  | free base =>
    rw [Heap.call, tryFree_eq]
    cases h : heap.free base with
    | error cause => exact tidy
    | ok freed => exact tidy.free h
  | shrink base len =>
    rw [Heap.call, tryShrink_eq]
    cases h : heap.shrink base len with
    | error cause => exact tidy
    | ok next => exact tidy.shrink h

theorem span_call (heap : Heap) (c : HeapCall) : (heap.call c).span = heap.span := by
  cases c with
  | allocate len => exact heap.span_allocate len
  | free base =>
    rw [call, tryFree_eq]
    cases h : heap.free base with
    | error cause => rfl
    | ok freed => exact span_free h
  | shrink base len =>
    rw [call, tryShrink_eq]
    cases h : heap.shrink base len with
    | error cause => rfl
    | ok next => exact span_shrink h

theorem Tidy.callAll (tidy : heap.Tidy) (calls : List HeapCall) :
    (heap.callAll calls).Tidy ∧ (heap.callAll calls).span = heap.span := by
  induction calls generalizing heap with
  | nil => exact ⟨tidy, rfl⟩
  | cons c rest ih =>
    obtain ⟨tidy', span⟩ := ih (tidy.call c)
    exact ⟨tidy', span.trans (heap.span_call c)⟩

/-- Whatever is asked of a heap, its blocks are in ascending order of their bases, share no address
and lie inside the span; none is empty, and no end of a block goes past the last longword. Gaps and
blocks together make up the span. A call that finds no block or no room leaves all blocks as they
are, and one that succeeds inserts one block, takes one out, or cuts one down. -/
theorem call_laws (span : HeapSpan) (calls : List HeapCall) :
    let heap := (ofSpan span).callAll calls
    let parts := heap.gaps ++ heap.blocks.map Block.stretch
    heap.blocks.Pairwise (fun a b => a.base < b.base ∧ Disjoint a.addresses b.addresses) ∧
    (∀ b ∈ heap.blocks, 0 < b.len.toNat ∧ span.floor.toNat ≤ b.base.toNat ∧
      b.stop ≤ span.top.toNat ∧ (b.base + b.len).toNat = b.stop) ∧
    (span.floor ≤ span.top →
      parts.Pairwise (fun p q => Disjoint p.addresses q.addresses) ∧
      (∀ n, (∃ p ∈ parts, n ∈ p.addresses) ↔ span.floor.toNat ≤ n ∧ n < span.top.toNat) ∧
      (gapLengths span.top.toNat span.floor.toNat heap.blocks).sum +
        (heap.blocks.map (·.len.toNat)).sum = span.top.toNat - span.floor.toNat) ∧
    (∀ len, (len = 0 ∨ ∀ g ∈ heap.gaps, g.len ≤ len.toNat) → heap.allocate len = (0, heap)) ∧
    (∀ len, len ≠ 0 → (∃ g ∈ heap.gaps, len.toNat < g.len) →
      ∃ before after base, heap.blocks = before ++ after ∧
        heap.allocate len = (base, { heap with blocks := before ++ ⟨base, len⟩ :: after })) ∧
    (∀ base, (∃ freed, heap.free base = .ok freed) ↔ ∃ b ∈ heap.blocks, b.base = base) ∧
    (∀ base cause, heap.free base = .error cause → heap.call (.free base) = heap) ∧
    (∀ base b next, heap.free base = .ok (b, next) →
      ∃ before after, heap.blocks = before ++ b :: after ∧ b.base = base ∧
        next = { heap with blocks := before ++ after }) ∧
    (∀ base len, (∃ next, heap.shrink base len = .ok next) ↔
      ∃ b ∈ heap.blocks, b.base = base ∧ len ≤ b.len) ∧
    (∀ base len cause, heap.shrink base len = .error cause →
      heap.call (.shrink base len) = heap) ∧
    ∀ base len next, heap.shrink base len = .ok next →
      ∃ before b after, heap.blocks = before ++ b :: after ∧ b.base = base ∧
        next = { heap with
          blocks := before ++ (if len = 0 then [] else [⟨base, len⟩]) ++ after } := by
  intro heap parts
  obtain ⟨tidy, same⟩ : heap.Tidy ∧ heap.span = span := (tidy_ofSpan span).callAll calls
  refine ⟨tidy.bases.and tidy.disjoint, fun b hb => ?_, fun room => ?_,
    fun len full => allocate_of_full full, fun len asked room => tidy.allocate_of_room asked room,
    fun base => exists_free_iff, fun base cause h => ?_, fun base b next h => tidy.free_eq_ok h,
    fun base len => tidy.exists_shrink_iff, fun base len cause h => ?_,
    fun base len next h => tidy.shrink_eq_ok h⟩
  · obtain ⟨low, high⟩ := tidy.inside b hb
    rw [same] at low high
    have extent : b.stop = b.base.toNat + b.len.toNat := rfl
    have bound := span.top.toNat_lt_size
    have large : UInt32.size = 4294967296 := rfl
    refine ⟨tidy.filled b hb, low, high, ?_⟩
    rw [UInt32.toNat_add]
    exact (Nat.mod_eq_of_lt (by omega)).trans extent.symm
  · rw [← same] at room ⊢
    obtain ⟨apart, cover, sum⟩ := tidy.tile room
    refine ⟨apart, cover, ?_⟩
    have lens : (heap.blocks.map Block.stretch).map Stretch.len = heap.blocks.map (·.len.toNat) := by
      rw [List.map_map]
      exact List.map_congr_left fun b _ => Nat.add_sub_cancel_left _ _
    rw [gapLengths_eq, ← sum, List.map_append, List.sum_append, lens]
    rfl
  · rw [call, tryFree_eq, h]
  · rw [call, tryShrink_eq, h]

end Heap

end AtariTos

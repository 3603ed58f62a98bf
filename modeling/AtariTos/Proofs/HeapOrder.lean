import AtariTos.Heap
import Mathlib.Order.CompletePartialOrder
import Mathlib.Order.Interval.Set.Disjoint

namespace AtariTos

namespace Block

def addresses (b : Block) : Set Nat :=
  Set.Ico b.base.toNat b.stop

end Block

namespace Heap

/-- Blocks in ascending order inside the span, none of them empty, each ending before the next. -/
structure Tidy (heap : Heap) : Prop where
  separate : heap.blocks.Pairwise fun a b => a.stop ≤ b.base.toNat
  filled : ∀ b ∈ heap.blocks, 0 < b.len.toNat
  inside : ∀ b ∈ heap.blocks, heap.span.floor.toNat ≤ b.base.toNat ∧ b.stop ≤ heap.span.top.toNat

variable {heap next : Heap} {base len : UInt32} {b : Block}

theorem tidy_ofSpan (span : HeapSpan) : (ofSpan span).Tidy :=
  ⟨List.Pairwise.nil, fun _ h => absurd h List.not_mem_nil, fun _ h => absurd h List.not_mem_nil⟩

theorem Tidy.disjoint (tidy : heap.Tidy) :
    heap.blocks.Pairwise fun a b => Disjoint a.addresses b.addresses := by
  refine tidy.separate.imp fun {a b} h => ?_
  rw [Block.addresses, Block.addresses, Set.Ico_disjoint_Ico]
  omega

theorem place_eq_some {top start : Nat} {blocks placed : List Block} (small : top < UInt32.size)
    (separate : blocks.Pairwise fun a b => a.stop ≤ b.base.toNat)
    (inside : ∀ b ∈ blocks, start ≤ b.base.toNat ∧ b.stop ≤ top)
    (h : place top len start blocks = some (base, placed)) :
    ∃ before after, blocks = before ++ after ∧ placed = before ++ ⟨base, len⟩ :: after ∧
      (∀ b ∈ before, b.stop ≤ base.toNat) ∧ (∀ b ∈ after, base.toNat + len.toNat ≤ b.base.toNat) ∧
      start ≤ base.toNat ∧ base.toNat + len.toNat ≤ top := by
  induction blocks generalizing start placed with
  | nil =>
    rw [place] at h
    split at h
    next fits =>
      cases h
      have whole : start.toUInt32.toNat = start := UInt32.toNat_ofNat_of_lt' (by omega)
      refine ⟨[], [], rfl, rfl, by simp, by simp, ?_, ?_⟩ <;> omega
    · cases h
  | cons b rest ih =>
    obtain ⟨behind, separate⟩ := List.pairwise_cons.mp separate
    have here := inside b (by simp)
    have long : b.base.toNat ≤ b.stop := Nat.le_add_right _ _
    rw [place] at h
    split at h
    next fits =>
      cases h
      have whole : start.toUInt32.toNat = start := by
        have := b.base.toNat_lt_size
        exact UInt32.toNat_ofNat_of_lt' (by omega)
      refine ⟨[], b :: rest, rfl, rfl, by simp, fun c hc => ?_, by omega, by omega⟩
      rcases List.mem_cons.mp hc with rfl | hc
      · omega
      · have := behind c hc
        omega
    next =>
      obtain ⟨⟨base', placed'⟩, found, eq⟩ := Option.map_eq_some_iff.mp h
      cases eq
      obtain ⟨before, after, rfl, rfl, below, above, low, high⟩ :=
        ih separate (fun c hc => ⟨behind c hc, (inside c (by simp [hc])).2⟩) found
      refine ⟨b :: before, after, rfl, rfl, fun c hc => ?_, above, by omega, high⟩
      rcases List.mem_cons.mp hc with rfl | hc
      · exact low
      · exact below c hc

theorem Tidy.allocate (tidy : heap.Tidy) (len : UInt32) : (heap.allocate len).2.Tidy := by
  unfold Heap.allocate
  split
  · exact tidy
  next some_asked =>
    split
    next base placed found =>
      obtain ⟨before, after, split, rfl, below, above, low, high⟩ :=
        place_eq_some heap.span.top.toNat_lt_size tidy.separate tidy.inside found
      have separate := split ▸ tidy.separate
      have apart := List.pairwise_append.mp separate
      have kept : ∀ b ∈ before ++ ⟨base, len⟩ :: after, b = ⟨base, len⟩ ∨ b ∈ heap.blocks := by
        intro b hb
        simp only [List.mem_append, List.mem_cons] at hb
        rw [split, List.mem_append]
        tauto
      refine ⟨?_, fun b hb => ?_, fun b hb => ?_⟩
      · refine List.pairwise_append.mpr ⟨apart.1, List.pairwise_cons.mpr ⟨above, apart.2.1⟩, ?_⟩
        intro a ha b hb
        rcases List.mem_cons.mp hb with rfl | hb
        · exact below a ha
        · exact apart.2.2 a ha b hb
      · rcases kept b hb with rfl | hb
        · have : len.toNat ≠ 0 := fun zero => some_asked (UInt32.toNat_inj.mp zero)
          exact Nat.pos_of_ne_zero this
        · exact tidy.filled b hb
      · rcases kept b hb with rfl | hb
        · exact ⟨low, high⟩
        · exact tidy.inside b hb
    · exact tidy

theorem Tidy.remove (tidy : heap.Tidy) (base : UInt32) : (heap.remove base).Tidy :=
  ⟨tidy.separate.filter _, fun b hb => tidy.filled b (List.mem_filter.mp hb).1,
    fun b hb => tidy.inside b (List.mem_filter.mp hb).1⟩

theorem Tidy.free (tidy : heap.Tidy) (h : heap.free base = .ok (b, next)) : next.Tidy := by
  rw [free_eq] at h
  split at h
  · cases h
  · cases h
    exact tidy.remove base

theorem Tidy.eq_of_base (tidy : heap.Tidy) {a b : Block} (ha : a ∈ heap.blocks)
    (hb : b ∈ heap.blocks) (h : a.base = b.base) : a = b := by
  have distinct : heap.blocks.Pairwise fun a b => a.base = b.base → a = b := by
    refine tidy.separate.imp_of_mem fun {a b} ha _ before same => ?_
    have := tidy.filled a ha
    rw [Block.stop, same] at before
    omega
  have distinct' : heap.blocks.Pairwise fun a b => b.base = a.base → b = a :=
    distinct.imp fun h same => (h same.symm).symm
  exact distinct.forall_of_forall_of_flip (fun _ _ _ => rfl) distinct' ha hb h

theorem Tidy.resize (tidy : heap.Tidy) (found : heap.block? base = some b) (some_left : len ≠ 0)
    (shorter : len ≤ b.len) : (heap.resize base len).Tidy := by
  have member := List.mem_of_find?_eq_some found
  have based : b.base = base := by simpa using List.find?_some found
  let cut (c : Block) : Block := if c.base = base then { c with len } else c
  have cut_base (c : Block) : (cut c).base = c.base := by
    by_cases here : c.base = base <;> simp [cut, here]
  have cut_stop : ∀ c ∈ heap.blocks, (cut c).stop ≤ c.stop := by
    intro c hc
    by_cases here : c.base = base
    · obtain rfl := tidy.eq_of_base hc member (here.trans based.symm)
      have := UInt32.le_iff_toNat_le.mp shorter
      simp only [cut, here, if_true, Block.stop]
      omega
    · simp [cut, here]
  have blocks : (heap.resize base len).blocks = heap.blocks.map cut := rfl
  refine ⟨?_, ?_, ?_⟩
  · rw [blocks, List.pairwise_map]
    refine tidy.separate.imp_of_mem fun {c d} hc _ before => ?_
    rw [cut_base]
    exact Nat.le_trans (cut_stop c hc) before
  · rw [blocks, List.forall_mem_map]
    intro c hc
    by_cases here : c.base = base
    · have : len.toNat ≠ 0 := fun zero => some_left (UInt32.toNat_inj.mp zero)
      simp only [cut, here, if_true]
      omega
    · simp only [cut, here, if_false]
      exact tidy.filled c hc
  · rw [blocks, List.forall_mem_map]
    intro c hc
    rw [cut_base]
    exact ⟨(tidy.inside c hc).1, Nat.le_trans (cut_stop c hc) (tidy.inside c hc).2⟩

theorem Tidy.shrink (tidy : heap.Tidy) (h : heap.shrink base len = .ok next) : next.Tidy := by
  rw [shrink_eq] at h
  split at h
  · cases h
  next b found =>
    split at h
    · cases h
      exact tidy.remove base
    next some_left =>
      split at h
      · cases h
      next shorter =>
        cases h
        exact tidy.resize found some_left (UInt32.not_lt.mp shorter)

theorem span_allocate (heap : Heap) (len : UInt32) : (heap.allocate len).2.span = heap.span := by
  unfold allocate
  split
  · rfl
  · split <;> rfl

theorem span_free (h : heap.free base = .ok (b, next)) : next.span = heap.span := by
  rw [free_eq] at h
  split at h
  · cases h
  · cases h
    rfl

theorem span_shrink (h : heap.shrink base len = .ok next) : next.span = heap.span := by
  rw [shrink_eq] at h
  split at h
  · cases h
  · split at h
    · cases h
      rfl
    · split at h
      · cases h
      · cases h
        rfl

end Heap

end AtariTos

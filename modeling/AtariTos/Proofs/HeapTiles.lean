import AtariTos.Proofs.HeapOrder
import Mathlib.Algebra.GroupWithZero.Nat
import Mathlib.Data.List.Perm.Basic

namespace AtariTos

/-- Neighbouring addresses, from the first one up to the one before `stop`. -/
structure Stretch where
  start : Nat
  stop : Nat
deriving DecidableEq, Repr

namespace Stretch

def len (p : Stretch) : Nat :=
  p.stop - p.start

def addresses (p : Stretch) : Set Nat :=
  Set.Ico p.start p.stop

/-- Each piece starts where the one before it stops, from `start` up to `stop`. -/
def Tile : Nat → List Stretch → Nat → Prop
  | start, [], stop => start = stop
  | start, p :: rest, stop => p.start = start ∧ p.start ≤ p.stop ∧ Tile p.stop rest stop

variable {start stop : Nat} {pieces : List Stretch}

theorem Tile.start_le_stop (tile : Tile start pieces stop) : start ≤ stop := by
  induction pieces generalizing start with
  | nil => exact Nat.le_of_eq tile
  | cons p rest ih =>
    obtain ⟨here, up, behind⟩ := tile
    have := ih behind
    omega

theorem Tile.exists_mem_iff (tile : Tile start pieces stop) (n : Nat) :
    (∃ p ∈ pieces, n ∈ p.addresses) ↔ start ≤ n ∧ n < stop := by
  induction pieces generalizing start with
  | nil =>
    have ends : start = stop := tile
    simp only [List.not_mem_nil, false_and, exists_false, false_iff]
    omega
  | cons p rest ih =>
    obtain ⟨here, up, behind⟩ := tile
    have above := behind.start_le_stop
    have first : n ∈ p.addresses ↔ p.start ≤ n ∧ n < p.stop := Iff.rfl
    simp only [List.mem_cons, exists_eq_or_imp, first]
    rw [ih behind]
    omega

theorem Tile.disjoint (tile : Tile start pieces stop) :
    pieces.Pairwise fun p q => Disjoint p.addresses q.addresses := by
  induction pieces generalizing start with
  | nil => exact List.Pairwise.nil
  | cons p rest ih =>
    obtain ⟨_, _, behind⟩ := tile
    refine List.pairwise_cons.mpr ⟨fun q hq => ?_, ih behind⟩
    rw [Set.disjoint_left]
    intro n hp hn
    have below : n < p.stop := hp.2
    have above : p.stop ≤ n := ((behind.exists_mem_iff n).mp ⟨q, hq, hn⟩).1
    omega

theorem Tile.sum_len (tile : Tile start pieces stop) : (pieces.map len).sum = stop - start := by
  induction pieces generalizing start with
  | nil =>
    have ends : start = stop := tile
    simp [ends]
  | cons p rest ih =>
    obtain ⟨here, up, behind⟩ := tile
    have above := behind.start_le_stop
    rw [List.map_cons, List.sum_cons, ih behind, len]
    omega

end Stretch

namespace Block

def stretch (b : Block) : Stretch :=
  ⟨b.base.toNat, b.stop⟩

end Block

namespace Heap

def gapsFrom (top : Nat) : Nat → List Block → List Stretch
  | start, [] => [⟨start, top⟩]
  | start, b :: rest => ⟨start, b.base.toNat⟩ :: gapsFrom top b.stop rest

def gaps (heap : Heap) : List Stretch :=
  gapsFrom heap.span.top.toNat heap.span.floor.toNat heap.blocks

def piecesFrom (top : Nat) : Nat → List Block → List Stretch
  | start, [] => [⟨start, top⟩]
  | start, b :: rest => ⟨start, b.base.toNat⟩ :: b.stretch :: piecesFrom top b.stop rest

variable {top start : Nat} {blocks : List Block} {heap : Heap}

theorem gapLengths_eq (top start : Nat) (blocks : List Block) :
    gapLengths top start blocks = (gapsFrom top start blocks).map Stretch.len := by
  induction blocks generalizing start with
  | nil => rfl
  | cons b rest ih => rw [gapLengths, gapsFrom, List.map_cons, ih, Stretch.len]

theorem piecesFrom_perm (top start : Nat) (blocks : List Block) :
    (piecesFrom top start blocks).Perm
      (gapsFrom top start blocks ++ blocks.map Block.stretch) := by
  induction blocks generalizing start with
  | nil => exact List.Perm.refl _
  | cons b rest ih =>
    rw [piecesFrom, gapsFrom, List.map_cons, List.cons_append]
    refine List.Perm.cons _ ?_
    exact ((ih b.stop).cons b.stretch).trans List.perm_middle.symm

theorem tile_piecesFrom (separate : blocks.Pairwise fun a b => a.stop ≤ b.base.toNat)
    (inside : ∀ b ∈ blocks, start ≤ b.base.toNat ∧ b.stop ≤ top) (room : start ≤ top) :
    Stretch.Tile start (piecesFrom top start blocks) top := by
  induction blocks generalizing start with
  | nil => exact ⟨rfl, room, rfl⟩
  | cons b rest ih =>
    obtain ⟨behind, separate⟩ := List.pairwise_cons.mp separate
    obtain ⟨low, high⟩ := inside b (by simp)
    have up : b.base.toNat ≤ b.stop := Nat.le_add_right _ _
    refine ⟨rfl, low, rfl, up, ih separate (fun c hc => ?_) high⟩
    exact ⟨behind c hc, (inside c (by simp [hc])).2⟩

/-- Gaps and blocks share no address and make up the whole span. -/
theorem Tidy.tile (tidy : heap.Tidy) (room : heap.span.floor ≤ heap.span.top) :
    let parts := heap.gaps ++ heap.blocks.map Block.stretch
    parts.Pairwise (fun p q => Disjoint p.addresses q.addresses) ∧
    (∀ n, (∃ p ∈ parts, n ∈ p.addresses) ↔
      heap.span.floor.toNat ≤ n ∧ n < heap.span.top.toNat) ∧
    (parts.map Stretch.len).sum = heap.span.top.toNat - heap.span.floor.toNat := by
  intro parts
  have tile := tile_piecesFrom tidy.separate tidy.inside (UInt32.le_iff_toNat_le.mp room)
  have perm := piecesFrom_perm heap.span.top.toNat heap.span.floor.toNat heap.blocks
  refine ⟨?_, fun n => ?_, ?_⟩
  · exact (perm.pairwise_iff fun h => h.symm).mp tile.disjoint
  · rw [← tile.exists_mem_iff n]
    exact exists_congr fun p => and_congr_left fun _ => perm.mem_iff.symm
  · rw [← tile.sum_len]
    exact ((perm.map Stretch.len).sum_nat).symm

end Heap

end AtariTos

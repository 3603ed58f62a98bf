import AtariTos.Program.MemoryMap
import AtariTos.Text.Hex

namespace AtariTos

structure Block where
  base : UInt32
  len : UInt32
deriving DecidableEq, Repr

namespace Block

def stop (b : Block) : Nat :=
  b.base.toNat + b.len.toNat

end Block

inductive HeapError where
  | noSuchBlock (base : UInt32)
  | cannotGrow (base len requested : UInt32)
deriving DecidableEq, Repr

namespace HeapError

def message : HeapError → String
  | noSuchBlock base => s!"no block starts at {hexAddress base.toNat}"
  | cannotGrow base len requested =>
    s!"block at {hexAddress base.toNat} is 0x{hex 1 len.toNat} bytes and cannot grow to " ++
      s!"0x{hex 1 requested.toNat}"

end HeapError

structure Heap where
  span : HeapSpan := {}
  blocks : List Block := []
deriving DecidableEq, Repr

namespace Heap

def ofSpan (span : HeapSpan) : Heap :=
  { span }

def gapLengths (top : Nat) : Nat → List Block → List Nat
  | start, [] => [top - start]
  | start, b :: rest => (b.base.toNat - start) :: gapLengths top b.stop rest

def biggestGap (heap : Heap) : Nat :=
  (gapLengths heap.span.top.toNat heap.span.floor.toNat heap.blocks).foldl max 0

/-- Puts a block of `len` bytes into the first gap that is larger; the answer is its base and the
blocks with it. -/
def place (top : Nat) (len : UInt32) : Nat → List Block → Option (UInt32 × List Block)
  | start, [] =>
    if len.toNat < top - start then some (start.toUInt32, [⟨start.toUInt32, len⟩]) else none
  | start, b :: rest =>
    if len.toNat < b.base.toNat - start then
      some (start.toUInt32, ⟨start.toUInt32, len⟩ :: b :: rest)
    else (place top len b.stop rest).map fun (base, placed) => (base, b :: placed)

/-- Reserves a block. The answer is its base, or zero when nothing was asked for or nothing fits. -/
def allocate (heap : Heap) (len : UInt32) : UInt32 × Heap :=
  if len = 0 then (0, heap)
  else
    match place heap.span.top.toNat len heap.span.floor.toNat heap.blocks with
    | some (base, blocks) => (base, { heap with blocks })
    | none => (0, heap)

def block? (heap : Heap) (base : UInt32) : Option Block :=
  heap.blocks.find? (·.base = base)

def remove (heap : Heap) (base : UInt32) : Heap :=
  { heap with blocks := heap.blocks.filter (·.base ≠ base) }

/-- Releases the block at a base, and hands the heap back also when there is none. -/
def tryFree (heap : Heap) (base : UInt32) : Except HeapError Block × Heap :=
  match heap.block? base with
  | none => (.error (.noSuchBlock base), heap)
  | some b => (.ok b, heap.remove base)

def free (heap : Heap) (base : UInt32) : Except HeapError (Block × Heap) :=
  match heap.tryFree base with
  | (.ok b, next) => .ok (b, next)
  | (.error cause, _) => .error cause

theorem free_eq (heap : Heap) (base : UInt32) :
    heap.free base =
      match heap.block? base with
      | none => .error (.noSuchBlock base)
      | some b => .ok (b, heap.remove base) := by
  unfold free tryFree
  cases heap.block? base <;> rfl

theorem tryFree_eq (heap : Heap) (base : UInt32) :
    heap.tryFree base =
      match heap.free base with
      | .ok (b, next) => (.ok b, next)
      | .error cause => (.error cause, heap) := by
  unfold free tryFree
  cases heap.block? base <;> rfl

def resize (heap : Heap) (base len : UInt32) : Heap :=
  { heap with blocks := heap.blocks.map fun b => if b.base = base then { b with len } else b }

/-- Cuts a block down, and hands the heap back also when it cannot. Growing is refused, and a block
cut to nothing is released. -/
def tryShrink (heap : Heap) (base len : UInt32) : Except HeapError Unit × Heap :=
  match heap.block? base with
  | none => (.error (.noSuchBlock base), heap)
  | some b =>
    if len = 0 then (.ok (), heap.remove base)
    else if b.len < len then (.error (.cannotGrow base b.len len), heap)
    else (.ok (), heap.resize base len)

def shrink (heap : Heap) (base len : UInt32) : Except HeapError Heap :=
  match heap.tryShrink base len with
  | (.ok (), next) => .ok next
  | (.error cause, _) => .error cause

theorem shrink_eq (heap : Heap) (base len : UInt32) :
    heap.shrink base len =
      match heap.block? base with
      | none => .error (.noSuchBlock base)
      | some b =>
        if len = 0 then .ok (heap.remove base)
        else if b.len < len then .error (.cannotGrow base b.len len)
        else .ok (heap.resize base len) := by
  unfold shrink tryShrink
  grind

theorem tryShrink_eq (heap : Heap) (base len : UInt32) :
    heap.tryShrink base len =
      match heap.shrink base len with
      | .ok next => (.ok (), next)
      | .error cause => (.error cause, heap) := by
  unfold shrink tryShrink
  grind

end Heap

end AtariTos

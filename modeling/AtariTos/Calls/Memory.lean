import AtariTos.System

namespace AtariTos

namespace Service

/-- Reserves a block and answers its base, or the size of the biggest gap if the length is minus
one. -/
def allocateBlock : Service UInt32 := do
  let len ← argumentLong 2
  let heap := (← get).kernel.heap
  if len = 0xffffffff then return heap.biggestGap.toUInt32
  else
    let (base, heap) := heap.allocate len
    setKernel fun kernel => { kernel with heap }
    return base

def setHeap (heap : Heap) : Service Unit :=
  setKernel fun kernel => { kernel with heap }

def freeBlock : Service UInt32 := do
  let base ← argumentLong 2
  let (freed, heap) := (← get).kernel.heap.tryFree base
  setHeap heap
  match freed with
  | .error _ => reject .invalidBlock
  | .ok _ => return 0

/-- Cuts a block down. The first argument word is not used. -/
def shrinkBlock : Service UInt32 := do
  let base ← argumentLong 4
  let len ← argumentLong 8
  let (shrunk, heap) := (← get).kernel.heap.tryShrink base len
  setHeap heap
  match shrunk with
  | .error (.noSuchBlock _) => reject .invalidBlock
  | .error (.cannotGrow _ _ _) => reject .growthFailure
  | .ok () => return 0

end Service

end AtariTos

import AtariTos.Proofs.HeapCalls
import AtariTos.Proofs.SessionRun

namespace AtariTos

/-- The call on the heap that a routine amounts to. A question for the biggest gap is none. -/
def Routine.heapCall? (called : Routine) (s : System) : Option HeapCall :=
  match called with
  | .allocateBlock =>
    match s.arguments.long 2 with
    | .ok len => if len = 0xffffffff then none else some (.allocate len)
    | .error _ => none
  | .freeBlock =>
    match s.arguments.long 2 with
    | .ok base => some (.free base)
    | .error _ => none
  | .shrinkBlock =>
    match s.arguments.long 4 with
    | .ok base =>
      match s.arguments.long 8 with
      | .ok len => some (.shrink base len)
      | .error _ => none
    | .error _ => none
  | _ => none

namespace Session

def heapCall? (s : Session) : Action → Option HeapCall
  | .trap vector =>
    match Trap.routine s.system vector with
    | .ok called => called.heapCall? s.system
    | .error _ => none
  | _ => none

def heapCalls (s : Session) : List Action → List HeapCall
  | [] => []
  | action :: rest => (s.heapCall? action).toList ++ (s.perform action).heapCalls rest

end Session

namespace Service

variable {s : System}

theorem heap_allocateBlock :
    (allocateBlock.after s).kernel.heap =
      s.kernel.heap.callAll (Routine.allocateBlock.heapCall? s).toList := by
  unfold allocateBlock Routine.heapCall?
  rw [after_argumentLong_bind]
  dsimp only
  cases s.arguments.long 2 with
  | error fault => rfl
  | ok len =>
    dsimp only
    rw [after_get_bind]
    split <;> rfl

theorem heap_freeBlock :
    (freeBlock.after s).kernel.heap =
      s.kernel.heap.callAll (Routine.freeBlock.heapCall? s).toList := by
  unfold freeBlock Routine.heapCall?
  rw [after_argumentLong_bind]
  dsimp only
  cases s.arguments.long 2 with
  | error fault => rfl
  | ok base =>
    dsimp only
    rw [after_get_bind, Option.toList_some, Heap.callAll, List.foldl_cons, List.foldl_nil, Heap.call]
    rcases s.kernel.heap.tryFree base with ⟨freed, heap⟩
    cases freed <;> rfl

theorem heap_shrinkBlock :
    (shrinkBlock.after s).kernel.heap =
      s.kernel.heap.callAll (Routine.shrinkBlock.heapCall? s).toList := by
  unfold shrinkBlock Routine.heapCall?
  rw [after_argumentLong_bind]
  dsimp only
  cases s.arguments.long 4 with
  | error fault => rfl
  | ok base =>
    dsimp only
    rw [after_argumentLong_bind]
    cases s.arguments.long 8 with
    | error fault => rfl
    | ok len =>
      dsimp only
      rw [after_get_bind, Option.toList_some, Heap.callAll, List.foldl_cons, List.foldl_nil,
        Heap.call]
      rcases s.kernel.heap.tryShrink base len with ⟨shrunk, heap⟩
      cases shrunk with
      | error cause => cases cause <;> rfl
      | ok done => rfl

end Service

theorem Routine.heap_run (called : Routine) (s : System) :
    (called.run.after s).kernel.heap = s.kernel.heap.callAll (called.heapCall? s).toList := by
  cases called with
  | allocateBlock =>
    rw [run, Service.after_map]
    exact Service.heap_allocateBlock
  | freeBlock =>
    rw [run, Service.after_map]
    exact Service.heap_freeBlock
  | shrinkBlock =>
    rw [run, Service.after_map]
    exact Service.heap_shrinkBlock
  | _ => exact run_touches _ s .heap (by decide)

namespace Session

variable {s : Session} {action : Action} {actions : List Action}

theorem heap_perform (keeps : action.keepsProgram) :
    (s.perform action).system.kernel.heap =
      s.system.kernel.heap.callAll (s.heapCall? action).toList := by
  cases action with
  | trap vector =>
    have here : (s.perform (.trap vector)).system = (Trap.serve vector s.system).2 := rfl
    rw [here, heapCall?]
    cases asked : Trap.routine s.system vector with
    | error cause =>
      rw [Trap.serve, asked]
      rfl
    | ok called =>
      obtain ⟨registers, same⟩ := Trap.after_serve asked
      rw [same]
      exact called.heap_run s.system
  | _ =>
    obtain ⟨_, suspended, kernel⟩ := kernel_perform (s := s) keeps (by simp)
    rw [kernel]
    rfl

theorem heap_performAll (keeps : ∀ action ∈ actions, action.keepsProgram) :
    (s.performAll actions).system.kernel.heap =
      s.system.kernel.heap.callAll (s.heapCalls actions) := by
  induction actions generalizing s with
  | nil => rfl
  | cons action rest ih =>
    obtain ⟨now, later⟩ := List.forall_mem_cons.mp keeps
    rw [heapCalls, Heap.callAll, List.foldl_append, ← Heap.callAll, ← Heap.callAll,
      ← heap_perform now]
    exact ih later

end Session

end AtariTos

import AtariTos.Proofs.ServiceEffects
import AtariTos.Proofs.MemoryBytes

namespace AtariTos

namespace System

def callerWritable (s : System) : Set Nat :=
  s.memory.writable s.registers.privilege

end System

namespace Service

variable {α β : Type} {parts : List Part} {start : GuestMemory} {within : α → Set Nat}
  {s : System}

/-- What an outcome leaves of guest memory as it was at the start. With a result, bytes have been
changed at some addresses only, which may depend on the result, and with a status none have; if
emulation stops they may be any bytes. -/
def Kept (start : GuestMemory) (within : α → Set Nat) : EStateM.Result Failure System α → Prop
  | .ok value t => start.ChangedIn (within value) t.memory
  | .error (.status _) t => start.ChangedIn ∅ t.memory
  | .error (.stop _) t => start.ChangedIn Set.univ t.memory

/-- A service that goes on in some state keeps what was there at the start. -/
def Writes (start : GuestMemory) (within : α → Set Nat) (m : Service α) (s : System) : Prop :=
  Kept start within (m.run s)

theorem Writes.of_ok {m : Service α} {t : System} {value : α} (h : Writes start within m s)
    (ran : m.run s = .ok value t) : start.ChangedIn (within value) t.memory := by
  rwa [Writes, ran] at h

theorem Writes.of_status {m : Service α} {t : System} {status : Status}
    (h : Writes start within m s) (ran : m.run s = .error (.status status) t) :
    start.ChangedIn ∅ t.memory := by
  rwa [Writes, ran] at h

theorem Writes.changedIn_after {m : Service α} (h : Writes start within m s) :
    start.ChangedIn Set.univ (m.after s).memory := by
  unfold Writes at h
  cases ran : m.run s with
  | ok value t =>
    rw [ran] at h
    rw [after_of_ok ran]
    exact h.mono (Set.subset_univ _)
  | error failure t =>
    rw [ran] at h
    rw [after_of_error ran]
    cases failure with
    | status status => exact h.mono (Set.subset_univ _)
    | stop cause => exact h

theorem Writes.map {m : Service α} {f : α → β} {within : β → Set Nat}
    (h : Writes start (fun value => within (f value)) m s) : Writes start within (f <$> m) s := by
  change Kept start (fun value => within (f value)) (m s) at h
  change Kept start within (EStateM.map f m s)
  rw [EStateM.map]
  revert h
  cases m s with
  | ok value t => exact id
  | error failure t => cases failure <;> exact id

theorem Kept.error {failure : Failure} {t : System} (h : start.ChangedIn ∅ t.memory) :
    Kept start within (.error failure t) := by
  cases failure with
  | status status => exact h
  | stop cause => exact h.mono (Set.subset_univ _)

theorem Writes.of_touches {m : Service α} (h : Touches parts m) (outside : .memory ∉ parts) :
    Writes s.memory within m s := by
  have same : (m.after s).memory = s.memory := h s .memory outside
  unfold Writes
  cases ran : m.run s with
  | ok value t =>
    rw [after_of_ok ran] at same
    exact same ▸ .refl _
  | error failure t =>
    rw [after_of_error ran] at same
    exact Kept.error (same ▸ .refl _)

theorem Writes.bind {m : Service α} {f : α → Service β} {within : β → Set Nat}
    (parts : List Part) (h : Touches parts m) (outside : .memory ∉ parts)
    (so_far : start.ChangedIn ∅ s.memory)
    (rest : ∀ value t, m.run s = .ok value t → System.AgreeBut parts s t →
      Writes start within (f value) t) :
    Writes start within (m >>= f) s := by
  have agree : System.AgreeBut parts s (m.after s) := h s
  unfold Writes
  cases ran : m.run s with
  | ok value t =>
    rw [after_of_ok ran] at agree
    rw [run_bind_of_ok ran]
    exact rest value t ran agree
  | error failure t =>
    rw [after_of_error ran] at agree
    have same : t.memory = s.memory := agree .memory outside
    rw [run_bind_of_error ran]
    exact Kept.error (same ▸ so_far)

theorem Writes.get {f : System → Service α} (rest : Writes start within (f s) s) :
    Writes start within (MonadState.get >>= f) s :=
  rest

theorem Writes.modify {f : Unit → Service α} {change : System → System}
    (rest : Writes start within (f ()) (change s)) :
    Writes start within ((modify change : Service Unit) >>= f) s :=
  rest

theorem Writes.ite {c : Prop} [Decidable c] {m m' : Service α} (yes : c → Writes start within m s)
    (no : ¬c → Writes start within m' s) : Writes start within (if c then m else m') s := by
  split
  · exact yes ‹c›
  · exact no ‹¬c›

theorem Writes.orStop {outcome : Except Fault α} {f : α → Service β} {within : β → Set Nat}
    (so_far : start.ChangedIn Set.univ s.memory)
    (rest : ∀ value, outcome = .ok value → Writes start within (f value) s) :
    Writes start within (Service.orStop outcome >>= f) s := by
  cases outcome with
  | ok value => exact rest value rfl
  | error fault => exact so_far

theorem Writes.argumentWord {offset : UInt32} {f : UInt16 → Service α}
    (so_far : start.ChangedIn Set.univ s.memory)
    (rest : ∀ value, s.arguments.word offset = .ok value → Writes start within (f value) s) :
    Writes start within (Service.argumentWord offset >>= f) s :=
  Writes.orStop so_far rest

theorem Writes.argumentHandle {offset : UInt32} {f : Int16 → Service α}
    (so_far : start.ChangedIn Set.univ s.memory)
    (rest : ∀ value, s.arguments.signedWord offset = .ok value → Writes start within (f value) s) :
    Writes start within (Service.argumentHandle offset >>= f) s :=
  Writes.orStop so_far rest

theorem Writes.argumentLong {offset : UInt32} {f : UInt32 → Service α}
    (so_far : start.ChangedIn Set.univ s.memory)
    (rest : ∀ value, s.arguments.long offset = .ok value → Writes start within (f value) s) :
    Writes start within (Service.argumentLong offset >>= f) s :=
  Writes.orStop so_far rest

theorem run_storeBuffer (addr : UInt32) (data : List UInt8) (s : System) :
    (storeBuffer addr data).run s =
      match s.memory.store addr data s.registers.privilege with
      | .ok memory => .ok () { s with memory }
      | .error _ => .error (.status .rangeError) s := by
  have opened : (storeBuffer addr data).run s =
      (setMemory (s.memory.tryStore addr data s.registers.privilege).2 >>= fun _ =>
        orRangeError (s.memory.tryStore addr data s.registers.privilege).1).run s := rfl
  rw [opened, GuestMemory.tryStore_eq]
  cases s.memory.store addr data s.registers.privilege <;> rfl

theorem run_loadBuffer (addr : UInt32) (len : Nat) (s : System) :
    (loadBuffer addr len).run s =
      match s.memory.load addr len s.registers.privilege with
      | .ok (data, memory) => .ok data { s with memory }
      | .error _ => .error (.status .rangeError) s := by
  have opened : (loadBuffer addr len).run s =
      (setMemory (s.memory.tryLoad addr len s.registers.privilege).2 >>= fun _ =>
        orRangeError (s.memory.tryLoad addr len s.registers.privilege).1).run s := rfl
  rw [opened, GuestMemory.tryLoad_eq]
  cases s.memory.load addr len s.registers.privilege <;> rfl

theorem Writes.storeBuffer {addr : UInt32} {data : List UInt8} {f : Unit → Service α}
    (so_far : start.ChangedIn ∅ s.memory)
    (rest : ∀ memory, s.memory.store addr data s.registers.privilege = .ok memory →
      Writes start within (f ()) { s with memory }) :
    Writes start within (Service.storeBuffer addr data >>= f) s := by
  have ran := run_storeBuffer addr data s
  unfold Writes
  cases stored : s.memory.store addr data s.registers.privilege with
  | ok memory =>
    rw [stored] at ran
    rw [run_bind_of_ok ran]
    exact rest memory stored
  | error fault =>
    rw [stored] at ran
    rw [run_bind_of_error ran]
    exact so_far

theorem Writes.loadBuffer {addr : UInt32} {len : Nat} {f : List UInt8 → Service α}
    (so_far : start.ChangedIn ∅ s.memory)
    (rest : ∀ data memory, s.memory.load addr len s.registers.privilege = .ok (data, memory) →
      Writes start within (f data) { s with memory }) :
    Writes start within (Service.loadBuffer addr len >>= f) s := by
  have ran := run_loadBuffer addr len s
  unfold Writes
  cases loaded : s.memory.load addr len s.registers.privilege with
  | ok result =>
    rw [loaded] at ran
    rw [run_bind_of_ok ran]
    exact rest result.1 result.2 loaded
  | error fault =>
    rw [loaded] at ran
    rw [run_bind_of_error ran]
    exact so_far

end Service

end AtariTos

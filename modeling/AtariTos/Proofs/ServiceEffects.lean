import AtariTos.Calls.Routine

namespace AtariTos

/-- The parts of a system that calls work on. -/
inductive Part where
  | registers
  | memory
  | heap
  | dta
  | handles
  | drive
  | suspended
  | console
  | host
deriving DecidableEq, Repr

namespace System

def arguments (s : System) : Arguments :=
  Arguments.ofRegisters s.memory s.registers

/-- Two states agree in a part. -/
def SameIn (s t : System) : Part → Prop
  | .registers => t.registers = s.registers
  | .memory => t.memory = s.memory
  | .heap => t.kernel.heap = s.kernel.heap
  | .dta => t.kernel.dta = s.kernel.dta
  | .handles => t.kernel.handles = s.kernel.handles
  | .drive => t.kernel.drive = s.kernel.drive
  | .suspended => t.kernel.suspended = s.kernel.suspended
  | .console => t.console = s.console
  | .host => t.host = s.host

/-- Two states agree in all but some parts. -/
def AgreeBut (parts : List Part) (s t : System) : Prop :=
  ∀ part, part ∉ parts → s.SameIn t part

variable {s t u : System}

theorem sameIn_refl (s : System) (part : Part) : s.SameIn s part := by
  cases part <;> rfl

theorem SameIn.trans {part : Part} (h : s.SameIn t part) (h' : t.SameIn u part) :
    s.SameIn u part := by
  cases part <;> exact Eq.trans h' h

theorem eq_of_sameIn (h : ∀ part, s.SameIn t part) : t = s := by
  obtain ⟨registers, memory, ⟨heap, dta, handles, drive, suspended⟩, console, host⟩ := t
  obtain rfl := h .registers
  obtain rfl := h .memory
  obtain rfl := h .heap
  obtain rfl := h .dta
  obtain rfl := h .handles
  obtain rfl := h .drive
  obtain rfl := h .suspended
  obtain rfl := h .console
  obtain rfl := h .host
  rfl

theorem AgreeBut.trans {parts : List Part} (h : AgreeBut parts s t) (h' : AgreeBut parts t u) :
    AgreeBut parts s u :=
  fun part outside => (h part outside).trans (h' part outside)

end System

namespace Service

variable {α β : Type}

/-- The state a service leaves, also when it fails. -/
def after (m : Service α) (s : System) : System :=
  match m.run s with
  | .ok _ t => t
  | .error _ t => t

theorem after_of_ok {m : Service α} {s t : System} {value : α} (h : m.run s = .ok value t) :
    m.after s = t := by
  rw [after, h]

theorem after_of_error {m : Service α} {s t : System} {failure : Failure}
    (h : m.run s = .error failure t) : m.after s = t := by
  rw [after, h]

theorem run_bind_of_ok {m : Service α} {f : α → Service β} {s t : System} {value : α}
    (h : m.run s = .ok value t) : (m >>= f).run s = (f value).run t := by
  change EStateM.bind m f s = _
  rw [EStateM.bind, show m s = .ok value t from h]
  rfl

theorem run_bind_of_error {m : Service α} {f : α → Service β} {s t : System} {failure : Failure}
    (h : m.run s = .error failure t) : (m >>= f).run s = .error failure t := by
  change EStateM.bind m f s = _
  rw [EStateM.bind, show m s = .error failure t from h]

theorem run_modify_bind (change : System → System) (f : Unit → Service α) (s : System) :
    ((modify change : Service Unit) >>= f).run s = (f ()).run (change s) :=
  rfl

theorem run_orStop_bind (outcome : Except Fault α) (f : α → Service β) (s : System) :
    (orStop outcome >>= f).run s =
      match outcome with
      | .ok value => (f value).run s
      | .error fault => .error (.stop (.fault fault)) s := by
  cases outcome <;> rfl

theorem run_argumentLong_bind (offset : UInt32) (f : UInt32 → Service α) (s : System) :
    (argumentLong offset >>= f).run s =
      match s.arguments.long offset with
      | .ok value => (f value).run s
      | .error fault => .error (.stop (.fault fault)) s := by
  have opened : (argumentLong offset >>= f).run s =
      (orStop (s.arguments.long offset) >>= f).run s := rfl
  rw [opened, run_orStop_bind]
  cases s.arguments.long offset <;> rfl

theorem run_argumentHandle_bind (offset : UInt32) (f : Int16 → Service α) (s : System) :
    (argumentHandle offset >>= f).run s =
      match s.arguments.signedWord offset with
      | .ok handle => (f handle).run s
      | .error fault => .error (.stop (.fault fault)) s := by
  have opened : (argumentHandle offset >>= f).run s =
      (orStop (s.arguments.signedWord offset) >>= f).run s := rfl
  rw [opened, run_orStop_bind]
  cases s.arguments.signedWord offset <;> rfl

theorem run_argumentWord_bind (offset : UInt32) (f : UInt16 → Service α) (s : System) :
    (argumentWord offset >>= f).run s =
      match s.arguments.word offset with
      | .ok word => (f word).run s
      | .error fault => .error (.stop (.fault fault)) s := by
  have opened : (argumentWord offset >>= f).run s =
      (orStop (s.arguments.word offset) >>= f).run s := rfl
  rw [opened, run_orStop_bind]
  cases s.arguments.word offset <;> rfl

theorem exists_long_of_run {offset : UInt32} {f : UInt32 → Service α} {s t : System} {result : α}
    (h : (argumentLong offset >>= f).run s = .ok result t) :
    ∃ value, s.arguments.long offset = .ok value ∧ (f value).run s = .ok result t := by
  rw [run_argumentLong_bind] at h
  split at h
  next value fetched => exact ⟨value, fetched, h⟩
  · cases h

theorem exists_handle_of_run {offset : UInt32} {f : Int16 → Service α} {s t : System} {result : α}
    (h : (argumentHandle offset >>= f).run s = .ok result t) :
    ∃ handle, s.arguments.signedWord offset = .ok handle ∧ (f handle).run s = .ok result t := by
  rw [run_argumentHandle_bind] at h
  split at h
  next handle fetched => exact ⟨handle, fetched, h⟩
  · cases h

theorem exists_word_of_run {offset : UInt32} {f : UInt16 → Service α} {s t : System} {result : α}
    (h : (argumentWord offset >>= f).run s = .ok result t) :
    ∃ word, s.arguments.word offset = .ok word ∧ (f word).run s = .ok result t := by
  rw [run_argumentWord_bind] at h
  split at h
  next word fetched => exact ⟨word, fetched, h⟩
  · cases h

theorem run_map (f : α → β) (m : Service α) (s : System) :
    (f <$> m).run s =
      match m.run s with
      | .ok value t => .ok (f value) t
      | .error failure t => .error failure t := by
  change EStateM.map f m s = _
  rw [EStateM.map, EStateM.run]
  cases m s <;> rfl

theorem ok_of_map {f : α → β} {m : Service α} {s t : System} {result : β}
    (h : (f <$> m).run s = .ok result t) : ∃ value, m.run s = .ok value t ∧ f value = result := by
  rw [run_map] at h
  split at h
  next value u ran =>
    cases h
    exact ⟨value, ran, rfl⟩
  · cases h

theorem ok_of_bind {m : Service α} {f : α → Service β} {s t : System} {result : β}
    (h : (m >>= f).run s = .ok result t) :
    ∃ value u, m.run s = .ok value u ∧ (f value).run u = .ok result t := by
  cases ran : m.run s with
  | ok value u =>
    rw [run_bind_of_ok ran] at h
    exact ⟨value, u, rfl, h⟩
  | error failure u =>
    rw [run_bind_of_error ran] at h
    cases h

theorem error_of_bind {m : Service α} {f : α → Service β} {s t : System} {failure : Failure}
    (h : (m >>= f).run s = .error failure t) : m.run s = .error failure t ∨
      ∃ value u, m.run s = .ok value u ∧ (f value).run u = .error failure t := by
  cases ran : m.run s with
  | ok value u =>
    rw [run_bind_of_ok ran] at h
    exact .inr ⟨value, u, rfl, h⟩
  | error failure' u =>
    rw [run_bind_of_error ran] at h
    cases h
    exact .inl rfl

theorem after_bind_of_ok {m : Service α} {f : α → Service β} {s t : System} {value : α}
    (h : m.run s = .ok value t) : (m >>= f).after s = (f value).after t := by
  rw [after, run_bind_of_ok h, after]

theorem after_bind_of_error {m : Service α} {f : α → Service β} {s t : System}
    {failure : Failure} (h : m.run s = .error failure t) : (m >>= f).after s = t :=
  after_of_error (run_bind_of_error h)

theorem after_map (f : α → β) (m : Service α) (s : System) : (f <$> m).after s = m.after s := by
  rw [after, run_map, after]
  cases m.run s <;> rfl

theorem run_get_bind (f : System → Service α) (s : System) :
    (MonadState.get >>= f).run s = (f s).run s :=
  rfl

theorem after_get_bind (f : System → Service α) (s : System) :
    (MonadState.get >>= f).after s = (f s).after s :=
  rfl

theorem after_argumentLong_bind (offset : UInt32) (f : UInt32 → Service α) (s : System) :
    (argumentLong offset >>= f).after s =
      match s.arguments.long offset with
      | .ok value => (f value).after s
      | .error _ => s := by
  have opened : (argumentLong offset >>= f).after s =
      (Service.orStop (s.arguments.long offset) >>= f).after s := rfl
  rw [opened]
  cases s.arguments.long offset <;> rfl

/-- The states before and after a service are always related. -/
def Always (R : System → System → Prop) (m : Service α) : Prop :=
  ∀ s, R s (m.after s)

theorem Always.bind {R : System → System → Prop} {m : Service α} {f : α → Service β}
    (trans : ∀ s t u, R s t → R t u → R s u) (first : Always R m)
    (second : ∀ value, Always R (f value)) : Always R (m >>= f) := by
  intro s
  cases h : m.run s with
  | ok value t =>
    rw [after_bind_of_ok h]
    have here := first s
    rw [after_of_ok h] at here
    exact trans s t _ here (second value t)
  | error failure t =>
    rw [after_bind_of_error h, ← after_of_error h]
    exact first s

/-- A service changes nothing but some parts of the system. -/
def Touches (parts : List Part) (m : Service α) : Prop :=
  Always (System.AgreeBut parts) m

namespace Touches

variable {parts : List Part}

theorem pure (value : α) : Touches parts (Pure.pure value : Service α) :=
  fun s part _ => s.sameIn_refl part

theorem bind {m : Service α} {f : α → Service β} (first : Touches parts m)
    (second : ∀ value, Touches parts (f value)) : Touches parts (m >>= f) :=
  Always.bind (fun _ _ _ => System.AgreeBut.trans) first second

theorem map {m : Service α} (f : α → β) (h : Touches parts m) : Touches parts (f <$> m) := by
  intro s part outside
  rw [after_map]
  exact h s part outside

theorem get : Touches parts (MonadState.get : Service System) :=
  fun s part _ => s.sameIn_refl part

theorem reject (status : Status) : Touches parts (Service.reject status : Service α) :=
  fun s part _ => s.sameIn_refl part

theorem stop (cause : StopCause) : Touches parts (Service.stop cause : Service α) :=
  fun s part _ => s.sameIn_refl part

theorem orStop (outcome : Except Fault α) : Touches parts (Service.orStop outcome) := by
  cases outcome with
  | ok value => exact pure value
  | error fault => exact stop _

theorem orRangeError (outcome : Except Fault α) : Touches parts (Service.orRangeError outcome) := by
  cases outcome with
  | ok value => exact pure value
  | error fault => exact reject _

theorem ite {c : Prop} [Decidable c] {m m' : Service α} (yes : c → Touches parts m)
    (no : ¬c → Touches parts m') : Touches parts (if c then m else m') := by
  split
  · exact yes ‹c›
  · exact no ‹¬c›

theorem after_eq {m : Service α} (reads : Touches [] m) (s : System) : m.after s = s :=
  System.eq_of_sameIn fun part => reads s part List.not_mem_nil

theorem after_bind {m : Service α} (reads : Touches [] m) (f : α → Service β) (s : System) :
    (m >>= f).after s = s ∨
      ∃ value, m.run s = .ok value s ∧ (m >>= f).after s = (f value).after s := by
  have same := reads.after_eq s
  cases ran : m.run s with
  | ok value t =>
    rw [after_of_ok ran] at same
    exact .inr ⟨value, same ▸ rfl, by rw [after_bind_of_ok ran, same]⟩
  | error failure t =>
    rw [after_of_error ran] at same
    exact .inl ((after_bind_of_error ran).trans same)

theorem exists_run {m : Service α} {f : α → Service β} {s t : System} (reads : Touches [] m)
    {result : β} (h : (m >>= f).run s = .ok result t) :
    ∃ value, m.run s = .ok value s ∧ (f value).run s = .ok result t := by
  have same := reads.after_eq s
  cases ran : m.run s with
  | ok value u =>
    rw [after_of_ok ran] at same
    rw [run_bind_of_ok ran, same] at h
    exact ⟨value, same ▸ rfl, h⟩
  | error failure u =>
    rw [run_bind_of_error ran] at h
    cases h

end Touches

end Service

end AtariTos

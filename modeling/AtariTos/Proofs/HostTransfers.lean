import AtariTos.Proofs.CallEffects
import AtariTos.Proofs.FileOperations
import AtariTos.Proofs.OpenFiles

namespace AtariTos

theorem Console.length_splitLine (max : Nat) (input : List UInt8) :
    (splitLine max input).1.length ≤ max := by
  induction input generalizing max with
  | nil => cases max <;> simp [splitLine]
  | cons byte rest ih =>
    cases max with
    | zero => simp [splitLine]
    | succ max =>
      rw [splitLine]
      split
      · simp
      · have := ih max
        simp only [List.length_cons]
        omega

theorem Console.length_of_takeLine {console next : Console} {max : Nat} {line : List UInt8}
    {fault? : Option HostFault} (h : console.takeLine max fault? = (.ok line, next)) :
    line.length ≤ max := by
  unfold takeLine at h
  split at h
  · cases h
    exact length_splitLine max console.input
  · dsimp only at h
    split at h
    · cases h
      exact length_splitLine max console.input
    · cases h

namespace HostTree

variable {tree grown : HostTree} {f moved : OpenFile} {count : Nat} {data : List UInt8}
  {fault? : Option HostFault} {cause : HostError}

theorem read_of_readFrom (h : tree.readFrom f count fault? = (.ok data, moved)) :
    tree.read f count = .ok (data, moved) := by
  unfold readFrom at h
  split at h
  · cases h
  next here =>
    cases h
    exact here
  next here =>
    split at h
    · cases h
      exact here
    · cases h

theorem eq_of_readFrom_error (h : tree.readFrom f count fault? = (.error cause, moved)) :
    moved = f ∨ ∃ fault ∈ fault?, ∃ n ≤ fault.done,
      moved = { f with position := f.position + n } := by
  unfold readFrom at h
  split at h
  · cases h
    exact .inl rfl
  · cases h
  next fault _ =>
    split at h
    · cases h
    · cases h
      exact .inr ⟨fault, rfl, _, Nat.min_le_left _ _, rfl⟩

theorem write_of_writeTo (h : tree.writeTo f data fault? = (.ok (), moved, grown)) :
    tree.write f data = .ok (moved, grown) := by
  unfold writeTo at h
  split at h
  · cases h
  next here =>
    cases h
    exact here
  next here =>
    split at h
    · cases h
      exact here
    · split at h <;> cases h

theorem eq_of_writeTo_error (h : tree.writeTo f data fault? = (.error cause, moved, grown)) :
    moved = f ∧ grown = tree ∨ ∃ fault ∈ fault?, ∃ part, part.length ≤ fault.done ∧
      tree.write f part = .ok (moved, grown) := by
  unfold writeTo at h
  split at h
  · cases h
    exact .inl ⟨rfl, rfl⟩
  · cases h
  next fault _ =>
    split at h
    · cases h
    · split at h
      · cases h
        exact .inl ⟨rfl, rfl⟩
      next here =>
        cases h
        exact .inr ⟨fault, rfl, _, List.length_take_le _ _, here⟩

end HostTree

namespace System

/-- A transfer of at most `done` bytes has changed the console, a position or a file, and nothing
else in the system. -/
inductive Transferred (done : Nat) (s : System) : System → Prop
  | consoleInput {max : Nat} (le : max ≤ done) :
      Transferred done s { s with console := (s.console.nextLine max).2 }
  | consoleOutput {data : List UInt8} (le : data.length ≤ done) :
      Transferred done s { s with console := s.console.write data }
  | position {handle : Int16} {f : OpenFile} {n : Nat}
      (given : s.kernel.handles.get? handle = some (.file f)) (le : n ≤ done) :
      Transferred done s
        { s with
          kernel.handles :=
            s.kernel.handles.replace handle { f with position := f.position + n } }
  | content {handle : Int16} {f moved : OpenFile} {data : List UInt8} {host : HostTree}
      (given : s.kernel.handles.get? handle = some (.file f)) (le : data.length ≤ done)
      (written : s.host.write f data = .ok (moved, host)) :
      Transferred done s
        { s with host, kernel.handles := s.kernel.handles.replace handle moved }

theorem replace_self {s : System} {handle : Int16} {f : OpenFile}
    (given : s.kernel.handles.get? handle = some (.file f)) :
    { s with kernel.handles := s.kernel.handles.replace handle f } = s := by
  rw [Handles.replace_self given]

end System

namespace Service

variable {α : Type} {s t : System}

theorem run_exchange (transfer : Except HostError α × Console) (s : System) :
    (exchange transfer).run s =
      match transfer.1 with
      | .ok value => .ok value { s with console := transfer.2 }
      | .error _ => .error (.status .internalError) { s with console := transfer.2 } := by
  obtain ⟨outcome, console⟩ := transfer
  cases outcome <;> rfl

theorem eq_of_exchange {transfer : Except HostError α × Console} {value : α}
    (ran : (exchange transfer).run s = .ok value t) :
    transfer = (.ok value, t.console) ∧ t = { s with console := transfer.2 } := by
  obtain ⟨outcome, console⟩ := transfer
  cases outcome with
  | ok value' =>
    cases ran
    exact ⟨rfl, rfl⟩
  | error cause => cases ran

end Service

end AtariTos

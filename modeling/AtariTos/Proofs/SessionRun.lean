import AtariTos.Proofs.MemoryAccesses
import AtariTos.Proofs.ProgramLayout
import AtariTos.Session

namespace AtariTos

namespace GuestMemory

/-- The areas are in order, and those that are devices show no state. -/
structure Sound (memory : GuestMemory) : Prop where
  ordered : memory.Ordered
  steady : ∀ a ∈ memory.areas, a.storage.IsSteady

variable {memory next : GuestMemory} {within : Set Nat}

theorem sound_empty : empty.Sound :=
  ⟨ordered_empty, fun _ h => absurd h List.not_mem_nil⟩

theorem Sound.of_changedIn (sound : memory.Sound) (changed : memory.ChangedIn within next) :
    next.Sound := by
  have ordered := sound.ordered.of_layout changed.layout
  refine ⟨ordered, fun b hb => ?_⟩
  obtain ⟨a, ha, outline⟩ := exists_of_layout changed.layout.symm hb
  obtain ⟨b', hb', here⟩ := changed.areas a ha
  have same : b' = b := ordered.eq_of_base hb' hb
    ((Area.base_eq_of_outline here.outline).trans (Area.base_eq_of_outline outline))
  exact same ▸ here.steady (sound.steady a ha)

end GuestMemory

namespace Session

/-- What can happen to a session. Between traps the processor may put anything into its registers
and go to any address of guest memory, in either privilege. -/
inductive Action where
  | load (file : Bytes) (args : List String)
  | launch
  | trap (vector : UInt8)
  | resume
  | close
  | registers (registers : Registers)
  | read (addr : UInt32) (count : Nat) (mode : Privilege)
  | write (addr : UInt32) (data : List UInt8) (mode : Privilege)
  | type (input : List UInt8)

namespace Action

/-- The program that is loaded stays. -/
def keepsProgram : Action → Bool
  | load _ _ => false
  | close => false
  | _ => true

theorem load_or_close {action : Action} (h : ¬action.keepsProgram) :
    (∃ file args, action = .load file args) ∨ action = .close := by
  cases action with
  | load file args => exact .inl ⟨file, args, rfl⟩
  | close => exact .inr rfl
  | _ => exact absurd rfl h

end Action

/-- One action. What fails leaves its effects, if it has any. -/
def perform (s : Session) : Action → Session
  | .load file args => (s.load file args).2
  | .launch => s.launch.2
  | .trap vector => (s.trap vector).2
  | .resume => s.resumeCaller.2
  | .close => s.close
  | .registers registers => { s with system.registers := registers }
  | .read addr count mode =>
    match s.system.memory.load addr count mode with
    | .ok (_, memory) => { s with system.memory := memory }
    | .error _ => s
  | .write addr data mode =>
    match s.system.memory.store addr data mode with
    | .ok memory => { s with system.memory := memory }
    | .error _ => s
  | .type input => { s with system.console := s.system.console.push input }

def performAll (s : Session) (actions : List Action) : Session :=
  actions.foldl perform s

variable {s : Session} {action : Action}

theorem performAll_induction (P : Session → Prop) (allowed : Action → Prop)
    (step : ∀ s action, allowed action → P s → P (s.perform action)) {actions : List Action}
    (all : ∀ action ∈ actions, allowed action) (start : P s) : P (s.performAll actions) := by
  induction actions generalizing s with
  | nil => exact start
  | cons action rest ih =>
    refine ih (fun later h => all later (List.mem_cons_of_mem _ h)) ?_
    exact step s action (all action List.mem_cons_self) start

theorem accessed_launch (s : Session) : s.system.memory.Accessed s.launch.2.system.memory := by
  unfold launch LoadedProgram.launch
  cases s.program with
  | none => exact .refl
  | some program =>
    dsimp only
    cases first : s.system.memory.write program.stackStart .long 0 .user with
    | error fault => exact .refl
    | ok cleared =>
      have so_far : s.system.memory.Accessed cleared := .of_write first
      dsimp only
      cases second : cleared.write (program.stackStart + 4) .long MemoryMap.basepage.base .user with
      | error fault => exact so_far
      | ok ready => exact so_far.trans (.of_write second)

theorem accessed_resumeCaller (s : Session) :
    s.system.memory.Accessed s.resumeCaller.2.system.memory := by
  unfold resumeCaller
  dsimp only
  split
  · exact .refl
  · cases s.system.kernel.suspended with
    | nil => exact .refl
    | cons caller waiting =>
      dsimp only
      cases read : s.system.memory.read s.system.registers.sp .long .supervisor with
      | error fault => exact .refl
      | ok result => exact .of_read read

theorem accessed_perform (s : Session) (keeps : action.keepsProgram) :
    s.system.memory.Accessed (s.perform action).system.memory := by
  cases action with
  | load file args => cases keeps
  | close => cases keeps
  | launch => exact s.accessed_launch
  | trap vector => exact Trap.accessed_serve vector s.system
  | resume => exact s.accessed_resumeCaller
  | registers registers => exact .refl
  | read addr count mode =>
    rw [perform]
    split
    next loaded => exact .of_load loaded
    · exact .refl
  | write addr data mode =>
    rw [perform]
    split
    next stored => exact .of_store stored
    · exact .refl
  | type input => exact .refl

theorem accessed_performAll {actions : List Action} (s : Session)
    (keeps : ∀ action ∈ actions, action.keepsProgram) :
    s.system.memory.Accessed (s.performAll actions).system.memory :=
  performAll_induction (fun t => s.system.memory.Accessed t.system.memory)
    (fun action => action.keepsProgram)
    (fun t _ keeps so_far => so_far.trans (t.accessed_perform keeps)) keeps .refl

theorem exists_system_of_perform (s : Session) (keeps : action.keepsProgram) :
    ∃ system, s.perform action = { s with system } := by
  cases action with
  | load file args => cases keeps
  | close => cases keeps
  | trap vector => exact ⟨_, rfl⟩
  | registers registers => exact ⟨_, rfl⟩
  | type input => exact ⟨_, rfl⟩
  | launch =>
    rw [perform, launch]
    dsimp only
    split
    · exact ⟨_, rfl⟩
    · split <;> exact ⟨_, rfl⟩
  | resume =>
    rw [perform, resumeCaller]
    dsimp only
    split
    · exact ⟨_, rfl⟩
    · split
      · exact ⟨_, rfl⟩
      · split <;> exact ⟨_, rfl⟩
  | read addr count mode =>
    rw [perform]
    split <;> exact ⟨_, rfl⟩
  | write addr data mode =>
    rw [perform]
    split <;> exact ⟨_, rfl⟩

theorem program_perform (s : Session) (keeps : action.keepsProgram) :
    (s.perform action).program = s.program := by
  obtain ⟨system, same⟩ := s.exists_system_of_perform keeps
  rw [same]

theorem program_performAll {actions : List Action} (s : Session)
    (keeps : ∀ action ∈ actions, action.keepsProgram) :
    (s.performAll actions).program = s.program :=
  performAll_induction (fun t => t.program = s.program) (fun action => action.keepsProgram)
    (fun t _ keeps same => (t.program_perform keeps).trans same) keeps rfl

theorem changedIn_perform (ordered : s.system.memory.Ordered) (keeps : action.keepsProgram) :
    s.system.memory.ChangedIn Set.univ (s.perform action).system.memory :=
  (s.accessed_perform keeps).changedIn ordered

theorem layout_performAll {actions : List Action} (ordered : s.system.memory.Ordered)
    (keeps : ∀ action ∈ actions, action.keepsProgram) :
    (s.performAll actions).system.memory.layout = s.system.memory.layout :=
  ((s.accessed_performAll keeps).changedIn ordered).layout

/-- Between traps, as long as a program stays loaded, the host's files stay as they are, and so does
the kernel but for the callers that wait. -/
theorem kernel_perform (keeps : action.keepsProgram) (noTrap : ∀ vector, action ≠ .trap vector) :
    (s.perform action).system.host = s.system.host ∧
      ∃ suspended, (s.perform action).system.kernel = { s.system.kernel with suspended } := by
  cases action with
  | load file args => cases keeps
  | close => cases keeps
  | trap vector => exact absurd rfl (noTrap vector)
  | launch =>
    rw [perform, launch]
    cases s.program with
    | none => exact ⟨rfl, _, rfl⟩
    | some program =>
      dsimp only
      split <;> exact ⟨rfl, _, rfl⟩
  | resume =>
    rw [perform, resumeCaller]
    dsimp only
    split
    · exact ⟨rfl, _, rfl⟩
    · split
      · exact ⟨rfl, _, rfl⟩
      · split <;> exact ⟨rfl, _, rfl⟩
  | registers registers => exact ⟨rfl, _, rfl⟩
  | read addr count mode =>
    rw [perform]
    split <;> exact ⟨rfl, _, rfl⟩
  | write addr data mode =>
    rw [perform]
    split <;> exact ⟨rfl, _, rfl⟩
  | type input => exact ⟨rfl, _, rfl⟩

/-- What loading a program makes of a session: it is the program of that session, in the memory that
it starts in, and the kernel has forgotten the process before. -/
theorem exists_of_load {loaded : Session} {file : Bytes} {args : List String}
    {program : LoadedProgram} (h : s.load file args = (.ok program, loaded)) :
    ∃ memory, LoadedProgram.ofFile file args s.ramTop = .ok (program, memory) ∧
      loaded =
        { s with
          program := some program
          system :=
            { s.system with memory, kernel := s.system.kernel.forgetProcess program.heap } } := by
  unfold load at h
  split at h
  · cases h
  next found =>
    cases h
    exact ⟨_, found, rfl⟩

theorem sound_load (s : Session) (file : Bytes) (args : List String) :
    (s.load file args).2.system.memory.Sound := by
  unfold load
  cases loaded : LoadedProgram.ofFile file args s.ramTop with
  | error cause => exact GuestMemory.sound_empty
  | ok result =>
    obtain ⟨placed, _⟩ := LoadedProgram.placed_of_ofFile loaded
    exact ⟨placed.ordered, placed.steady⟩

theorem sound_perform (sound : s.system.memory.Sound) (action : Action) :
    (s.perform action).system.memory.Sound := by
  cases action with
  | load file args => exact s.sound_load file args
  | close => exact GuestMemory.sound_empty
  | _ => exact sound.of_changedIn (changedIn_perform sound.ordered rfl)

theorem sound_performAll (sound : s.system.memory.Sound) (actions : List Action) :
    (s.performAll actions).system.memory.Sound :=
  performAll_induction (fun s => s.system.memory.Sound) (fun _ => True)
    (fun _ action _ sound => sound_perform sound action) (fun _ _ => trivial) sound

end Session

end AtariTos

import AtariTos.Proofs.HeapPlacement
import AtariTos.Proofs.OpenFiles
import AtariTos.Proofs.ProcessorRuns

namespace AtariTos

namespace System

/-- The program asks for its end, with an exit code: zero, or the word behind the code of the call,
which has a sign. -/
def AsksToEnd (s : System) (vector : UInt8) (code : Int32) : Prop :=
  vector = Trap.gemdosVector ∧
    (s.arguments.selector = .ok 0x00 ∧ code = 0 ∨
      s.arguments.selector = .ok 0x4c ∧
        ∃ word, s.arguments.word 2 = .ok word ∧ code.toInt = word.toInt16.toInt)

end System

namespace Service

variable {s t : System} {code : Int32}

theorem run_value_ne_ending (m : Service UInt32) :
    (Answer.value <$> m).run s ≠ .ok (.ending code) t := by
  rw [run_map]
  intro ran
  split at ran <;> cases ran

theorem run_exitCode (s : System) :
    exitCode.run s =
      match s.arguments.word 2 with
      | .ok word => .ok word.toInt16.toInt32 s
      | .error fault => .error (.stop (.fault fault)) s := by
  unfold exitCode
  rw [run_argumentHandle_bind, Arguments.signedWord]
  cases s.arguments.word 2 <;> rfl

end Service

namespace Routine

variable {s t : System} {called : Routine} {code : Int32}

/-- The code of the GEMDOS call behind a routine that ends the program. -/
def endingCode? : Routine → Option UInt16
  | endSuccessfully => some 0x00
  | endWithCode => some 0x4c
  | _ => none

theorem run_endWithCode_iff :
    (∃ t, endWithCode.run.run s = .ok (.ending code) t) ↔
      ∃ word, s.arguments.word 2 = .ok word ∧ code.toInt = word.toInt16.toInt := by
  rw [run, Service.run_map, Service.run_exitCode]
  cases s.arguments.word 2 with
  | error fault => simp
  | ok word => simp [← Int32.toInt_inj, eq_comm]

theorem run_eq_ending (ran : called.run.run s = .ok (.ending code) t) :
    called = .endSuccessfully ∧ code = 0 ∨ called = .endWithCode := by
  cases called with
  | endSuccessfully =>
    cases ran
    exact .inl ⟨rfl, rfl⟩
  | endWithCode => exact .inr rfl
  | outputStatus => cases ran
  -- Every other routine answers a value.
  | _ => exact absurd ran (Service.run_value_ne_ending _)

end Routine

namespace Trap

variable {s : System} {vector : UInt8} {called : Routine} {code : Int32} {c : UInt16}

theorem selector_of_endingCode? (h : routine s vector = .ok called)
    (ends : called.endingCode? = some c) :
    vector = gemdosVector ∧ s.arguments.selector = .ok c := by
  obtain ⟨table, behind, call, member, selected, handler⟩ := exists_call h
  have declared : ∀ call ∈ table.calls, (call.handler.bind Routine.endingCode?).all
      (fun c => vector = gemdosVector ∧ call.code = c) := by
    obtain ⟨rfl, rfl⟩ | ⟨rfl, rfl⟩ | ⟨rfl, rfl⟩ := calls_eq_ok behind
    all_goals exact List.all_eq_true.mp (by decide)
  have here := declared call member
  rw [handler, Option.bind_some, ends, Option.all_some, decide_eq_true_eq] at here
  exact ⟨here.1, by rw [selected, here.2]⟩

theorem routine_of_endingCode? (selected : s.arguments.selector = .ok c)
    (ends : called.endingCode? = some c) : routine s gemdosVector = .ok called := by
  rw [routine_of_selector rfl selected]
  cases called <;> cases ends <;> rfl

theorem serve_ended_iff :
    (serve vector s).1 = .ok (.ended code) ↔
      ∃ called, routine s vector = .ok called ∧ ∃ t, called.run.run s = .ok (.ending code) t := by
  unfold serve
  cases asked : routine s vector with
  | error cause => simp
  | ok called =>
    simp only [Except.ok.injEq, exists_eq_left']
    unfold complete
    cases ran : called.run.run s with
    | ok result t => cases result <;> simp
    | error failure t => cases failure <;> simp

end Trap

namespace Session

/-- Nothing is left of a program. -/
structure Closed (s : Session) : Prop where
  program : s.program = none
  memory : s.system.memory = .empty
  files : ∀ handle, s.system.kernel.handles.opened handle = none
  suspended : s.system.kernel.suspended = []

theorem closed_close (s : Session) : s.close.Closed :=
  ⟨rfl, rfl, Handles.opened_closeFiles _, rfl⟩

variable {s : Session} {vector : UInt8} {code : Int32}

theorem trap_ended_iff :
    (s.trap vector).1 = .ok (.ended code) ↔ s.system.AsksToEnd vector code := by
  have opened : (s.trap vector).1 = .ok (.ended code) ↔
      (Trap.serve vector s.system).1 = .ok (.ended code) := by
    change (Trap.serve vector s.system).1.mapError _ = _ ↔ _
    cases (Trap.serve vector s.system).1 <;> simp [Except.mapError]
  rw [opened, Trap.serve_ended_iff]
  constructor
  · rintro ⟨called, asked, t, ran⟩
    rcases Routine.run_eq_ending ran with ⟨rfl, rfl⟩ | rfl
    · obtain ⟨layer, selected⟩ := Trap.selector_of_endingCode? asked rfl
      exact ⟨layer, .inl ⟨selected, rfl⟩⟩
    · obtain ⟨layer, selected⟩ := Trap.selector_of_endingCode? asked rfl
      exact ⟨layer, .inr ⟨selected, Routine.run_endWithCode_iff.mp ⟨t, ran⟩⟩⟩
  · rintro ⟨rfl, ⟨selected, rfl⟩ | ⟨selected, named⟩⟩
    · exact ⟨.endSuccessfully, Trap.routine_of_endingCode? selected rfl, s.system, rfl⟩
    · exact ⟨.endWithCode, Trap.routine_of_endingCode? selected rfl,
        Routine.run_endWithCode_iff.mpr named⟩

variable {σ : Type} {core : Core σ} {state next : σ} {t : Session} {steps : Nat}

/-- A step ends the program if and only if its instruction raises a trap that asks for the end. -/
theorem step_ended_iff :
    step core state s = (some (.ended code), next, t) ↔
      ∃ vector asking, Executes core state s (.ok (.trapped vector)) next asking ∧
        asking.system.AsksToEnd vector code ∧ t = (asking.trap vector).2.close := by
  constructor
  · intro h
    cases stepped_of_step h with
    | @ended vector code next t asking ran served =>
      refine ⟨vector, asking, ran, trap_ended_iff.mp ?_, ?_⟩
      · rw [served]
      · rw [served]
  · rintro ⟨vector, asking, ⟨resumed, ran⟩, asks, rfl⟩
    have ended := trap_ended_iff.mpr asks
    unfold step
    rw [resumed]
    simp only [ran]
    split
    next served =>
      rw [served] at ended
      cases ended
    next served =>
      rw [served] at ended
      cases ended
    next served =>
      rw [served] at ended ⊢
      cases ended
      rfl

theorem drive_of_ending {ending : Ending} (found : step core state s = (some ending, next, t)) :
    drive core (steps + 1) state s = (ending, next, t) := by
  rw [drive, found]

theorem drive_of_going (found : step core state s = (none, next, t)) :
    drive core (steps + 1) state s = drive core steps next t := by
  rw [drive, found]

theorem drive_ended_iff :
    drive core steps state s = (.ended code, next, t) ↔
      ∃ earlier < steps, ∃ before reached,
        drive core earlier state s = (.unfinished, before, reached) ∧
          step core before reached = (some (.ended code), next, t) := by
  induction steps generalizing state s with
  | zero => simp [drive]
  | succ steps ih =>
    rcases found : step core state s with ⟨_ | ending, mid, u⟩
    · rw [drive_of_going found, ih]
      constructor
      · rintro ⟨earlier, sooner, before, reached, led, last⟩
        refine ⟨earlier + 1, Nat.succ_lt_succ sooner, before, reached, ?_, last⟩
        exact (drive_of_going found).trans led
      · rintro ⟨earlier, sooner, before, reached, led, last⟩
        cases earlier with
        | zero =>
          cases led
          rw [found] at last
          cases last
        | succ earlier =>
          rw [drive_of_going found] at led
          exact ⟨earlier, Nat.lt_of_succ_lt_succ sooner, before, reached, led, last⟩
    · rw [drive_of_ending found]
      constructor
      · intro h
        cases h
        exact ⟨0, Nat.succ_pos _, state, s, rfl, found⟩
      · rintro ⟨earlier, _, before, reached, led, last⟩
        cases earlier with
        | zero =>
          cases led
          rw [found] at last
          cases last
          rfl
        | succ earlier =>
          -- A step that is the last one of a run has stopped it or ended the program.
          rw [drive_of_ending found] at led
          cases led
          cases stepped_of_step found

theorem run_ended_iff :
    run core steps state s = (.ended code, next, t) ↔
      ∃ earlier < steps, ∃ before reached,
        run core earlier state s = (.unfinished, before, reached) ∧
          ∃ vector asking, Executes core before reached (.ok (.trapped vector)) next asking ∧
            asking.system.AsksToEnd vector code ∧ t = (asking.trap vector).2.close := by
  unfold run
  rcases s.launch with ⟨_ | _, launched⟩
  · simp
  · simp only [drive_ended_iff, step_ended_iff]

/-- Two calls of GEMDOS end a program and nothing else does. A trap ends it if and only if it is one
of them, with the exit code that the call names. A run of any processor ends if and only if, after
some steps, an instruction raises such a trap, whatever routines the program is in then; and nothing
is left of the program. A run that stops, or has not finished, leaves the program loaded, and in its
memory, whose areas are in order in every session, no area comes, goes or changes its place, length
or rights. -/
theorem ended_iff_asked (bus : core.StaysOnBus) :
    (∀ (s : Session) (vector : UInt8) (code : Int32),
      (s.trap vector).1 = .ok (.ended code) ↔ s.system.AsksToEnd vector code) ∧
    (∀ (s t : Session) (steps : Nat) (state next : σ) (code : Int32),
      run core steps state s = (.ended code, next, t) ↔
        ∃ earlier < steps, ∃ before reached,
          run core earlier state s = (.unfinished, before, reached) ∧
            ∃ vector asking, Executes core before reached (.ok (.trapped vector)) next asking ∧
              asking.system.AsksToEnd vector code ∧ t = (asking.trap vector).2.close) ∧
    (∀ (s t : Session) (steps : Nat) (state next : σ) (code : Int32),
      run core steps state s = (.ended code, next, t) → t.Closed) ∧
    ∀ (s t : Session) (steps : Nat) (state next : σ) (ending : Ending),
      s.system.memory.Ordered → run core steps state s = (ending, next, t) →
        (∀ code, ending ≠ .ended code) →
        t.program = s.program ∧ t.system.memory.layout = s.system.memory.layout := by
  refine ⟨fun s vector code => trap_ended_iff, fun s t steps state next code => run_ended_iff,
    fun s t steps state next code h => ?_, fun s t steps state next ending ordered h stays => ?_⟩
  · obtain ⟨_, _, _, _, _, _, _, _, _, rfl⟩ := run_ended_iff.mp h
    exact closed_close _
  · have kept := evolves_run bus h stays
    exact ⟨kept.program, kept.layout ordered⟩

/-- A core that calls GEMDOS with one frame after the other. -/
def callingCore : Core (List CallFrame) where
  step frames registers memory :=
    match frames with
    | [] => (.ok .done, [], registers, memory)
    | frame :: rest =>
      match memory.store 0xa00 frame.encode registers.privilege with
      | .error fault => (.error fault, rest, registers, memory)
      | .ok next => (.ok (.trapped Trap.gemdosVector), rest, registers.set .sp 0xa00, next)

theorem staysOnBus_callingCore : callingCore.StaysOnBus := by
  intro frames registers memory
  cases frames with
  | nil => exact .refl
  | cons frame rest =>
    dsimp only [callingCore]
    cases stored : memory.store 0xa00 frame.encode registers.privilege with
    | error fault => exact .refl
    | ok next => exact .of_store stored

def askingForThree : List CallFrame :=
  [⟨0x30, []⟩, ⟨0x4c, [.word 3]⟩]

/-- A program asks for what is known by name only. -/
def askingForPexec : List CallFrame :=
  [⟨0x4b, []⟩]

set_option maxRecDepth 10000 in
theorem run_callingCore :
    (run callingCore 2 askingForThree withInstruction).1 = .ended 3 ∧
      ∃ stop, (run callingCore 2 askingForPexec withInstruction).1 = .stopped stop := by
  refine ⟨?_, ⟨0x900, .noHandler .gemdos "Pexec" 0x4b⟩, ?_⟩
  all_goals
    rw [withInstruction, loadedAreas, LoadedProgram.areas, LoadedProgram.userArea_eq]
    decide +kernel

theorem ended_iff_asked_callingCore :
    callingCore.StaysOnBus ∧ withInstruction.system.memory.Ordered ∧
      (∃ next t, run callingCore 2 askingForThree withInstruction = (.ended 3, next, t) ∧
        t.Closed) ∧
      ∃ stop next t,
        run callingCore 2 askingForPexec withInstruction = (.stopped stop, next, t) ∧
          t.program = some loadedInstruction ∧
          t.system.memory.layout = withInstruction.system.memory.layout := by
  obtain ⟨_, _, closed, kept⟩ := ended_iff_asked staysOnBus_callingCore
  obtain ⟨ended, stop, stopped⟩ := run_callingCore
  have ordered : withInstruction.system.memory.Ordered := by
    have sound := littleMemory.sound_load oneInstruction []
    rw [load_oneInstruction] at sound
    exact sound.ordered
  refine ⟨staysOnBus_callingCore, ordered, ?_, stop, ?_⟩
  · rcases ran : run callingCore 2 askingForThree withInstruction with ⟨ending, next, t⟩
    rw [ran] at ended
    obtain rfl : ending = .ended 3 := ended
    exact ⟨next, t, rfl, closed _ _ _ _ _ _ ran⟩
  · rcases ran : run callingCore 2 askingForPexec withInstruction with ⟨ending, next, t⟩
    rw [ran] at stopped
    obtain rfl : ending = .stopped stop := stopped
    exact ⟨next, t, rfl, kept _ _ _ _ _ _ ordered ran fun code same => by cases same⟩

end Session

end AtariTos

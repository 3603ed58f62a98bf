import AtariTos.Proofs.SessionRun

namespace AtariTos

/-- An instruction does nothing to guest memory but read and write it, also when it fails. -/
def Core.StaysOnBus {σ : Type} (core : Core σ) : Prop :=
  ∀ (state : σ) (registers : Registers) (memory : GuestMemory),
    memory.Accessed (core.step state registers memory).2.2.2

namespace Session

/-- Some actions lead from one session to the other while the program stays loaded. -/
def Evolves (s t : Session) : Prop :=
  ∃ actions : List Action, (∀ action ∈ actions, action.keepsProgram) ∧ s.performAll actions = t

section

variable {s t u : Session}

namespace Evolves

theorem refl (s : Session) : s.Evolves s :=
  ⟨[], fun _ none => absurd none List.not_mem_nil, rfl⟩

theorem of_perform (s : Session) (action : Action) (keeps : action.keepsProgram) :
    s.Evolves (s.perform action) :=
  ⟨[action], fun _ only => List.mem_singleton.mp only ▸ keeps, rfl⟩

theorem trans (h : s.Evolves t) (h' : t.Evolves u) : s.Evolves u := by
  obtain ⟨actions, keeps, rfl⟩ := h
  obtain ⟨later, keeps', rfl⟩ := h'
  refine ⟨actions ++ later, fun action member => ?_, List.foldl_append⟩
  exact (List.mem_append.mp member).elim (keeps action) (keeps' action)

theorem of_accessed {memory : GuestMemory} (h : s.system.memory.Accessed memory) :
    s.Evolves { s with system.memory := memory } := by
  induction h with
  | refl => exact .refl s
  | @load next last addr count mode values _ loaded ih =>
    have action := of_perform { s with system.memory := next } (.read addr count mode) rfl
    rw [perform, loaded] at action
    exact ih.trans action
  | @store next last addr data mode _ stored ih =>
    have action := of_perform { s with system.memory := next } (.write addr data mode) rfl
    rw [perform, stored] at action
    exact ih.trans action

theorem program (h : s.Evolves t) : t.program = s.program := by
  obtain ⟨actions, keeps, rfl⟩ := h
  exact s.program_performAll keeps

theorem layout (h : s.Evolves t) (ordered : s.system.memory.Ordered) :
    t.system.memory.layout = s.system.memory.layout := by
  obtain ⟨actions, keeps, rfl⟩ := h
  exact layout_performAll ordered keeps

end Evolves

end

variable {σ : Type} {core : Core σ} {state next : σ} {s t : Session} {outcome : Option Ending}

/-- An instruction, and the session that it leaves before a trap that it may raise is served. -/
inductive Executes (core : Core σ) (state : σ) (s : Session) :
    Except Fault CoreEvent → σ → Session → Prop where
  | intro {back : Bool} {ready : Session} {event : Except Fault CoreEvent} {next : σ}
      {registers : Registers} {memory : GuestMemory}
      (resumed : s.resumeCaller = (.ok back, ready))
      (ran : core.step state ready.system.registers ready.system.memory =
        (event, next, registers, memory)) :
      Executes core state s event next
        { ready with system := { ready.system with registers, memory } }

/-- What a step of a run can be. -/
inductive Stepped (core : Core σ) (state : σ) (s : Session) :
    Option Ending → σ → Session → Prop where
  | unresumed {stop : Stop} {t : Session} (failed : s.resumeCaller = (.error stop, t)) :
      Stepped core state s (some (.stopped stop)) state t
  | faulted {fault : Fault} {next : σ} {t : Session} (pc : UInt32)
      (ran : Executes core state s (.error fault) next t) :
      Stepped core state s (some (.stopped ⟨pc, .fault fault⟩)) next t
  | done {next : σ} {t : Session} (ran : Executes core state s (.ok .done) next t) :
      Stepped core state s none next t
  | halted {vector : UInt8} {stop : Stop} {next : σ} {t u : Session}
      (ran : Executes core state s (.ok (.trapped vector)) next u)
      (served : u.trap vector = (.error stop, t)) :
      Stepped core state s (some (.stopped stop)) next t
  | proceeds {vector : UInt8} {next : σ} {t u : Session}
      (ran : Executes core state s (.ok (.trapped vector)) next u)
      (served : u.trap vector = (.ok .proceed, t)) : Stepped core state s none next t
  | ended {vector : UInt8} {code : Int32} {next : σ} {t u : Session}
      (ran : Executes core state s (.ok (.trapped vector)) next u)
      (served : u.trap vector = (.ok (.ended code), t)) :
      Stepped core state s (some (.ended code)) next t.close

theorem stepped_of_step (h : step core state s = (outcome, next, t)) :
    Stepped core state s outcome next t := by
  unfold step at h
  split at h
  next stop after failed =>
    cases h
    exact .unresumed failed
  next back ready resumed =>
    rcases ran : core.step state ready.system.registers ready.system.memory with
      ⟨event, next', registers, memory⟩
    have executed := Executes.intro resumed ran
    simp only [ran] at h
    split at h
    · cases h
      exact .faulted _ executed
    · cases h
      exact .done executed
    · split at h
      next served =>
        cases h
        exact .halted executed served
      next served =>
        cases h
        exact .proceeds executed served
      next served =>
        cases h
        exact .ended executed served

theorem Executes.evolves {event : Except Fault CoreEvent} (bus : core.StaysOnBus)
    (h : Executes core state s event next t) : s.Evolves t := by
  obtain ⟨resumed, ran⟩ := h
  next ready registers memory =>
    have back : s.Evolves ready := by
      have action := Evolves.of_perform s .resume rfl
      rwa [perform, resumed] at action
    have accessed := bus state ready.system.registers ready.system.memory
    rw [ran] at accessed
    have instruction := (Evolves.of_accessed accessed).trans
      (.of_perform _ (.registers registers) rfl)
    exact back.trans instruction

theorem Evolves.of_trap {vector : UInt8} {result : Except Stop AfterTrap} {u : Session}
    (h : s.Evolves u) (served : u.trap vector = (result, t)) : s.Evolves t := by
  have action := Evolves.of_perform u (.trap vector) rfl
  rw [perform, served] at action
  exact h.trans action

theorem Stepped.evolves (bus : core.StaysOnBus) (h : Stepped core state s outcome next t)
    (stays : ∀ code, outcome ≠ some (.ended code)) : s.Evolves t := by
  cases h with
  | unresumed failed =>
    have action := Evolves.of_perform s .resume rfl
    rwa [perform, failed] at action
  | faulted pc ran => exact ran.evolves bus
  | done ran => exact ran.evolves bus
  | halted ran served => exact (ran.evolves bus).of_trap served
  | proceeds ran served => exact (ran.evolves bus).of_trap served
  | @ended vector code => exact absurd rfl (stays code)

theorem evolves_drive {ending : Ending} {steps : Nat} (bus : core.StaysOnBus)
    (h : drive core steps state s = (ending, next, t)) (stays : ∀ code, ending ≠ .ended code) :
    s.Evolves t := by
  induction steps generalizing state s with
  | zero =>
    cases h
    exact .refl _
  | succ steps ih =>
    unfold drive at h
    split at h
    next found =>
      cases h
      refine (stepped_of_step found).evolves bus fun code same => ?_
      exact stays code (Option.some.inj same)
    next found =>
      have first := (stepped_of_step found).evolves bus fun code same => by cases same
      exact first.trans (ih h)

theorem evolves_run {ending : Ending} {steps : Nat} (bus : core.StaysOnBus)
    (h : run core steps state s = (ending, next, t)) (stays : ∀ code, ending ≠ .ended code) :
    s.Evolves t := by
  have launched := Evolves.of_perform s .launch rfl
  rw [perform] at launched
  unfold run at h
  split at h
  next failed =>
    cases h
    rwa [failed] at launched
  next succeeded =>
    rw [succeeded] at launched
    exact launched.trans (evolves_drive bus h stays)

end Session

end AtariTos

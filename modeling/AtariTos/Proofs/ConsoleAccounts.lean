import AtariTos.Proofs.CallSuccesses

namespace AtariTos

namespace Session

variable {s start : Session} {vector : UInt8} {action : Action} {actions : List Action}
  {got : List UInt8}

def input (s : Session) : List UInt8 :=
  s.system.console.input

def output (s : Session) : List UInt8 :=
  s.system.console.output

/-- What an action takes from the front of the input. -/
def taken (s : Session) (action : Action) : List UInt8 :=
  s.input.take (s.input.length - (s.perform action).input.length)

/-- What an action adds to the end of the output. -/
def printed (s : Session) (action : Action) : List UInt8 :=
  (s.perform action).output.drop s.output.length

def Action.typed : Action → List UInt8
  | type input => input
  | _ => []

/-- The bytes that the actions of a run take or print, in order. -/
def along (bytes : Session → Action → List UInt8) : Session → List Action → List UInt8
  | _, [] => []
  | s, action :: rest => bytes s action ++ along bytes (s.perform action) rest

theorem taken_of_append (h : s.input = got ++ (s.perform action).input) : s.taken action = got := by
  rw [taken, h, List.length_append, Nat.add_sub_cancel, List.take_left]

theorem printed_of_append (h : (s.perform action).output = s.output ++ got) :
    s.printed action = got := by
  rw [printed, h, List.drop_left]

theorem console_perform (noTrap : ∀ vector, action ≠ .trap vector) :
    (s.perform action).system.console = s.system.console.push action.typed := by
  have same : s.system.console = s.system.console.push [] := by
    rw [Console.push, List.append_nil]
  cases action with
  | trap vector => exact absurd rfl (noTrap vector)
  | type input => rfl
  | load file args =>
    rw [perform, load]
    split <;> exact same
  | launch =>
    rw [perform, launch]
    dsimp only
    split
    · exact same
    · split <;> exact same
  | resume =>
    rw [perform, resumeCaller]
    dsimp only
    split
    · exact same
    · split
      · exact same
      · split <;> exact same
  | close | registers registers => exact same
  | read addr count mode =>
    rw [perform]
    split <;> exact same
  | write addr data mode =>
    rw [perform]
    split <;> exact same

/-- The account of a trap. It takes a prefix of the input and only appends to the output, and if its
call succeeds it takes and prints what the call and its arguments say, and otherwise nothing. A call
that finds what its arguments name does succeed. -/
structure Accounts (s : Session) (vector : UInt8) : Prop where
  remains : s.input = s.taken (.trap vector) ++ (s.perform (.trap vector)).input
  grows : (s.perform (.trap vector)).output = s.output ++ s.printed (.trap vector)
  exchanges : ∀ called t, s.Succeeds vector called t →
    called.Exchanges s.system (t.system.registers.get .answer) t.system.memory
      (s.taken (.trap vector)) (s.printed (.trap vector))
  refuses : (∀ called t, ¬s.Succeeds vector called t) →
    s.taken (.trap vector) = [] ∧ s.printed (.trap vector) = []
  succeeds : ∀ called, Trap.routine s.system vector = .ok called → called.IsServed s.system →
    s.Succeeds vector called (s.perform (.trap vector))

theorem console_of_refused (ordered : s.system.memory.Ordered)
    (silent : s.system.memory.Each Area.IsSilent)
    (refuses : ∀ called t, ¬s.Succeeds vector called t) :
    (s.perform (.trap vector)).system.console = s.system.console := by
  change (Trap.serve vector s.system).2.console = _
  rcases Trap.exists_after_serve vector s.system with same | ⟨called, registers, asked, same⟩
  · rw [same]
  · rw [same]
    exact called.console_of_run ordered silent fun value u ran =>
      refuses called _ ⟨asked, ⟨value, u, ran⟩, rfl⟩

theorem accounts_trap (sound : s.system.memory.Sound)
    (silent : s.system.memory.Each Area.IsSilent) (holds : s.system.memory.Each Area.HoldsWrites)
    (vector : UInt8) : s.Accounts vector := by
  have succeeds (called : Routine) (asked : Trap.routine s.system vector = .ok called)
      (served : called.IsServed s.system) :
      s.Succeeds vector called (s.perform (.trap vector)) := by
    obtain ⟨value, u, ran⟩ := Routine.exists_value_of_isServed sound.ordered served
    exact ⟨asked, ⟨value, u, ran⟩, rfl⟩
  by_cases answered : ∃ called t, s.Succeeds vector called t
  · obtain ⟨called, t, asked, ⟨result, u, ran⟩, rfl⟩ := answered
    have after := trap_of_run asked ran
    obtain ⟨got, out, exchange, before, behind⟩ :=
      Routine.settles_of_run sound silent holds ran
    have remains : s.input = got ++ (s.perform (.trap vector)).input := by
      rw [input, input, after]
      exact before
    have grows : (s.perform (.trap vector)).output = s.output ++ out := by
      rw [output, output, after]
      exact behind
    have answer : (s.perform (.trap vector)).system.registers.get .answer = result := by
      rw [after, Trap.answer, Registers.get_set_answer]
    have memory : (s.perform (.trap vector)).system.memory = u.memory := by
      rw [after]
      rfl
    rw [← answer, ← memory] at exchange
    -- Both lists are settled by the consoles before and after.
    obtain rfl := taken_of_append remains
    obtain rfl := printed_of_append grows
    refine ⟨remains, grows, fun called' t done => ?_, fun none => ?_, succeeds⟩
    · obtain ⟨asked', _, rfl⟩ := done
      cases asked.symm.trans asked'
      exact exchange
    · exact absurd ⟨asked, ⟨result, u, ran⟩, rfl⟩ (none called _)
  · have refuses : ∀ called t, ¬s.Succeeds vector called t := fun called t done =>
      answered ⟨called, t, done⟩
    have same := console_of_refused sound.ordered silent refuses
    have remains : s.input = [] ++ (s.perform (.trap vector)).input := by
      rw [input, input, same, List.nil_append]
    have grows : (s.perform (.trap vector)).output = s.output ++ [] := by
      rw [output, output, same, List.append_nil]
    have nothing := taken_of_append remains
    have nothing' := printed_of_append grows
    refine ⟨?_, ?_, fun called t done => absurd done (refuses called t),
      fun _ => ⟨nothing, nothing'⟩, succeeds⟩
    · rwa [nothing]
    · rwa [nothing']

def typed (actions : List Action) : List UInt8 :=
  actions.flatMap Action.typed

theorem input_perform (sound : s.system.memory.Sound) (silent : s.system.memory.Each Area.IsSilent)
    (holds : s.system.memory.Each Area.HoldsWrites) (action : Action) :
    s.input ++ action.typed = s.taken action ++ (s.perform action).input := by
  by_cases trap : ∃ vector, action = .trap vector
  · obtain ⟨vector, rfl⟩ := trap
    exact (List.append_nil _).trans (accounts_trap sound silent holds vector).remains
  · have after : (s.perform action).input = s.input ++ action.typed := by
      rw [input, console_perform fun vector same => trap ⟨vector, same⟩]
      rfl
    have nothing : s.taken action = [] := by
      rw [taken, after, List.length_append, Nat.sub_self_add, List.take_zero]
    rw [nothing, after, List.nil_append]

theorem output_perform (sound : s.system.memory.Sound)
    (silent : s.system.memory.Each Area.IsSilent) (holds : s.system.memory.Each Area.HoldsWrites)
    (action : Action) : (s.perform action).output = s.output ++ s.printed action := by
  by_cases trap : ∃ vector, action = .trap vector
  · obtain ⟨vector, rfl⟩ := trap
    exact (accounts_trap sound silent holds vector).grows
  · have after : (s.perform action).output = s.output := by
      rw [output, console_perform fun vector same => trap ⟨vector, same⟩]
      rfl
    rw [printed, after, List.drop_length, List.append_nil]

theorem account_along (sound : start.system.memory.Sound)
    (silent : start.system.memory.Each Area.IsSilent)
    (holds : start.system.memory.Each Area.HoldsWrites) (actions : List Action) :
    start.input ++ typed actions = along taken start actions ++ (start.performAll actions).input ∧
      (start.performAll actions).output = start.output ++ along printed start actions := by
  induction actions generalizing start with
  | nil => exact ⟨List.append_nil _, (List.append_nil _).symm⟩
  | cons action rest ih =>
    have before := input_perform sound silent holds action
    have grown := output_perform sound silent holds action
    obtain ⟨remains, grows⟩ := ih (sound_perform sound action)
      (isSilent_performAll silent [action]) (holdsWrites_performAll holds [action])
    constructor
    · calc start.input ++ typed (action :: rest)
          = (start.input ++ action.typed) ++ typed rest := by
            rw [typed, List.flatMap_cons, List.append_assoc, typed]
        _ = start.taken action ++ ((start.perform action).input ++ typed rest) := by
            rw [before, List.append_assoc]
        _ = along taken start (action :: rest) ++ (start.performAll (action :: rest)).input := by
            rw [remains, along, List.append_assoc]
            rfl
    · calc (start.performAll (action :: rest)).output
          = (start.perform action).output ++ along printed (start.perform action) rest := grows
        _ = start.output ++ along printed start (action :: rest) := by
            rw [grown, along, List.append_assoc]

/-- No byte of the console is lost, read twice or moved. Along every run what was waiting at first
and what was typed is what the actions have taken, in order, and what still waits; and the output
has grown by what they have printed, in order. Each trap takes and prints just what its call and its
arguments say: one character, one line, one string or one buffer, and otherwise nothing. -/
theorem accounts_performAll (sound : start.system.memory.Sound)
    (silent : start.system.memory.Each Area.IsSilent)
    (holds : start.system.memory.Each Area.HoldsWrites) (reached : start.performAll actions = s) :
    start.input ++ typed actions = along taken start actions ++ s.input ∧
      s.output = start.output ++ along printed start actions ∧
      ∀ vector, s.Accounts vector := by
  subst reached
  obtain ⟨remains, grows⟩ := account_along sound silent holds actions
  exact ⟨remains, grows, accounts_trap (sound_performAll sound actions)
    (isSilent_performAll silent actions) (holdsWrites_performAll holds actions)⟩

/-- A program that reads up to nine bytes from the console, where a line and a character wait. -/
def readingLine : Session where
  system :=
    { memory := ⟨[.ofBuffer "ram" 0
        #[0, 0x3f, 0, 0, 0, 0, 0, 9, 0, 0, 0, 12, 0, 0, 0, 0, 0, 0, 0, 0, 0] .readWrite]⟩
      kernel := { drive := { root := [] } }
      console := .ofInput [0x68, 0x69, 0x0a, 0x79] }

/-- A program that prints a string. -/
def printingString : Session where
  system :=
    { memory := ⟨[.ofBuffer "ram" 0 #[0, 0x09, 0, 0, 0, 6, 0x68, 0x69, 0] .readWrite]⟩
      kernel := { drive := { root := [] } }
      console := .ofInput [0x79] }

theorem accounts_performAll_readingLine :
    (readingLine.Succeeds Trap.gemdosVector .readFile
        (readingLine.perform (.trap Trap.gemdosVector)) ∧
      Routine.readFile.Exchanges readingLine.system 3
        (readingLine.perform (.trap Trap.gemdosVector)).system.memory [0x68, 0x69, 0x0a] [] ∧
      [0x68, 0x69, 0x0a, 0x79] =
        [0x68, 0x69, 0x0a] ++ (readingLine.perform (.trap Trap.gemdosVector)).input) ∧
    printingString.Succeeds Trap.gemdosVector .printString
        (printingString.perform (.trap Trap.gemdosVector)) ∧
      (printingString.perform (.trap Trap.gemdosVector)).output = [] ++ [0x68, 0x69] := by
  have sound (memory : Array UInt8)
      (filled : (Area.ofBuffer "ram" 0 memory .readWrite).isEmpty = false) :
      (⟨[.ofBuffer "ram" 0 memory .readWrite]⟩ : GuestMemory).Sound :=
    ⟨⟨List.pairwise_singleton _ _, List.forall_mem_singleton.mpr filled⟩,
      List.forall_mem_singleton.mpr trivial⟩
  have silent (memory : Array UInt8) :
      (⟨[.ofBuffer "ram" 0 memory .readWrite]⟩ : GuestMemory).Each Area.IsSilent :=
    List.forall_mem_singleton.mpr trivial
  have holds (memory : Array UInt8) :
      (⟨[.ofBuffer "ram" 0 memory .readWrite]⟩ : GuestMemory).Each Area.HoldsWrites :=
    List.forall_mem_singleton.mpr fun _ => ⟨rfl, rfl⟩
  constructor
  · have reached : readingLine.performAll [] = readingLine := rfl
    obtain ⟨_, _, accounts⟩ := accounts_performAll (sound _ rfl) (silent _) (holds _) reached
    have done : readingLine.Succeeds Trap.gemdosVector .readFile
        (readingLine.perform (.trap Trap.gemdosVector)) := by decide
    have account := accounts Trap.gemdosVector
    have taken : readingLine.taken (.trap Trap.gemdosVector) = [0x68, 0x69, 0x0a] := by decide
    have printed : readingLine.printed (.trap Trap.gemdosVector) = [] := by decide
    have told : (readingLine.perform (.trap Trap.gemdosVector)).system.registers.get .answer =
        3 := by decide
    have exchange := account.exchanges _ _ done
    rw [taken, printed, told] at exchange
    exact ⟨done, exchange, taken ▸ account.remains⟩
  · have reached : printingString.performAll [] = printingString := rfl
    obtain ⟨_, _, accounts⟩ := accounts_performAll (sound _ rfl) (silent _) (holds _) reached
    have account := accounts Trap.gemdosVector
    have asked : Trap.routine printingString.system Trap.gemdosVector = .ok .printString := by
      decide
    have held : printingString.system.memory.HoldsString 6 [0x68, 0x69] .user :=
      ⟨.ofBuffer "ram" 0 #[0, 0x09, 0, 0, 0, 6, 0x68, 0x69, 0] .readWrite, rfl,
        ⟨⟨by decide, by decide⟩, by decide, by decide, by decide, by decide⟩⟩
    have done := account.succeeds .printString asked ⟨6, [0x68, 0x69], by decide, held, by decide⟩
    have printed : printingString.printed (.trap Trap.gemdosVector) = [0x68, 0x69] := by decide
    exact ⟨done, printed ▸ account.grows⟩

end Session

end AtariTos

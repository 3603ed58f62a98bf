import AtariTos.Proofs.ExceptionVectors
import AtariTos.Proofs.HiddenMemory
import AtariTos.Proofs.RegisterCells

namespace AtariTos

namespace Registers

variable {r : Registers}

theorem get_sp_enterMode (r : Registers) (mode : Privilege) :
    (r.enterMode mode).get .sp = r.stackPointer mode := by
  rw [← sp_eq_get, sp_eq_stackPointer, privilege_enterMode, stackPointer_enterMode]

theorem get_set_answer_sp (r : Registers) (value : UInt32) :
    (r.set .answer value).get .sp = r.get .sp :=
  get_set_answer_of_ne (by decide) value

/-- The registers of a supervisor who gives up the privilege for a stack of the user. -/
def leave (r : Registers) (stack : UInt32) : Registers :=
  ((r.set .usp stack).enterMode .user).set .answer 0

theorem privilege_leave (r : Registers) (stack : UInt32) : (r.leave stack).privilege = .user :=
  (privilege_set rfl _ _).trans (privilege_enterMode _ .user)

theorem stackPointer_leave (r : Registers) (stack : UInt32) (mode : Privilege) :
    (r.leave stack).stackPointer mode = if mode = .user then stack else r.stackPointer mode := by
  have ne : Register.answer ≠ .sp := by decide
  have outer := stackPointer_set rfl ne ((r.set .usp stack).enterMode .user) 0 mode
  rw [leave, outer, stackPointer_enterMode]
  exact r.stackPointer_setStackPointer .user mode stack

theorem get_sp_leave (r : Registers) (stack : UInt32) : (r.leave stack).get .sp = stack := by
  rw [← sp_eq_get, sp_eq_stackPointer, privilege_leave, stackPointer_leave, if_pos rfl]

theorem get_ssp_leave (supervisor : r.privilege = .supervisor) (stack : UInt32) :
    (r.leave stack).get .ssp = r.get .sp := by
  have kept := r.stackPointer_leave stack .supervisor
  rw [if_neg (by decide), ← supervisor, ← sp_eq_stackPointer, supervisor] at kept
  exact kept

theorem testBit_leave (r : Registers) (stack : UInt32) {bit : Nat} (low : bit < 16)
    (other : bit ≠ 13) :
    ((r.leave stack).get .sr).toNat.testBit bit = (r.get .sr).toNat.testBit bit := by
  have cut (r : Registers) : r.cells.sr.toNat.testBit bit = (r.get .sr).toNat.testBit bit := by
    change r.sr.toUInt16.toNat.testBit bit = r.sr.toNat.testBit bit
    rw [UInt32.toNat_toUInt16, Nat.testBit_mod_two_pow, decide_eq_true low, Bool.true_and]
  have outer : (r.leave stack).cells.sr = ((r.set .usp stack).enterMode .user).cells.sr := rfl
  have inner : (r.set .usp stack).cells.sr = r.cells.sr := by
    rw [cells_set]
    rfl
  rw [← cut, ← cut, outer, cells_enterMode, RegisterCells.testBit_enter, if_neg other, inner]

end Registers

namespace Service

theorem run_switchMode (s : System) :
    switchMode.run s =
      match s.arguments.long 2 with
      | .error fault => .error (.stop (.fault fault)) s
      | .ok stack =>
        if stack = 0 then
          .ok s.registers.sp { s with registers := s.registers.enterMode .supervisor }
        else if stack = 1 then .ok (if s.registers.privilege = .supervisor then 1 else 0) s
        else .ok 0 { s with registers := (s.registers.set .usp stack).enterMode .user } := by
  unfold switchMode
  rw [run_argumentLong_bind]
  cases s.arguments.long 2 with
  | error fault => rfl
  | ok stack =>
    dsimp only
    rw [run_get_bind]
    by_cases enters : stack = 0
    · rw [if_pos enters, if_pos enters]
      rfl
    · rw [if_neg enters, if_neg enters]
      by_cases inquires : stack = 1
      · rw [if_pos inquires, if_pos inquires]
        rfl
      · rw [if_neg inquires, if_neg inquires]
        rfl

end Service

namespace LoadedProgram

/-- What a user may go to lies at the basepage or above. -/
theorem le_start_of_permits {span : Span} {ramTop : UInt32} {access : Access}
    (member : span ∈ spans ramTop) (allowed : span.rights.permits access .user = true) :
    0x800 ≤ span.start := by
  have hidden (closed : span.rights.isPrivate = true) : 0x800 ≤ span.start := by
    rw [Rights.permits_user_of_isPrivate closed] at allowed
    cases allowed
  simp only [spans, List.mem_cons, List.not_mem_nil, or_false] at member
  rcases member with rfl | rfl | rfl | rfl | rfl | rfl
  · exact hidden rfl
  · exact hidden rfl
  · exact hidden rfl
  · exact hidden rfl
  · exact Nat.le_refl 0x800
  · exact (by decide : 0x800 ≤ 0x900)

end LoadedProgram

namespace Session

variable {s start loaded : Session} {file : Bytes} {args : List String} {program : LoadedProgram}
  {before : List Action} {stack : UInt32}

/-- The next trap is the call that switches the privilege, with this argument. -/
structure AsksMode (s : Session) (stack : UInt32) : Prop where
  code : s.system.arguments.selector = .ok 0x20
  argument : s.system.arguments.long 2 = .ok stack

theorem AsksMode.routine_eq (asks : s.AsksMode stack) :
    Trap.routine s.system Trap.gemdosVector = .ok .switchMode :=
  (Trap.routine_of_selector rfl asks.code).trans (by decide)

theorem AsksMode.trap_zero (asks : s.AsksMode 0) :
    s.trap Trap.gemdosVector =
      (.ok .proceed,
        { s with system.registers :=
            (s.system.registers.enterMode .supervisor).set .answer s.system.registers.sp }) := by
  have ran : Routine.switchMode.run.run s.system = .ok (.value s.system.registers.sp)
      { s.system with registers := s.system.registers.enterMode .supervisor } := by
    rw [Routine.run, Service.run_map, Service.run_switchMode, asks.argument]
    rfl
  exact trap_of_value asks.routine_eq ran

theorem AsksMode.trap_stack (asks : s.AsksMode stack) (notZero : stack ≠ 0) (notOne : stack ≠ 1) :
    s.trap Trap.gemdosVector =
      (.ok .proceed,
        { s with system.registers := s.system.registers.leave stack }) := by
  have ran : Routine.switchMode.run.run s.system = .ok (.value 0)
      { s.system with registers := (s.system.registers.set .usp stack).enterMode .user } := by
    rw [Routine.run, Service.run_map, Service.run_switchMode, asks.argument]
    dsimp only
    rw [if_neg notZero, if_neg notOne]
  exact trap_of_value asks.routine_eq ran

theorem le_sp_of_selector {code : UInt16} (load : start.load file args = (.ok program, loaded))
    (keeps : ∀ action ∈ before, action.keepsProgram) (here : loaded.performAll before = s)
    (user : s.system.registers.privilege = .user)
    (asked : s.system.arguments.selector = .ok code) : 0x800 ≤ s.system.registers.sp.toNat := by
  have spans := spans_of_load load keeps
  rw [here] at spans
  have ordered : s.system.memory.Ordered := here ▸ ordered_of_load load keeps
  have fetched : ∃ value, s.system.memory.peek (s.system.registers.sp + 0) .word
      s.system.registers.privilege = .ok value := GuestMemory.exists_map_iff.mp ⟨code, asked⟩
  rw [UInt32.add_zero, user] at fetched
  obtain ⟨area, located⟩ :=
    GuestMemory.exists_peekBytes_iff.mp (GuestMemory.exists_map_iff.mp fetched)
  obtain ⟨member, inside, _, allowed⟩ := ordered.locate_eq_ok_iff.mp located
  have listed : ⟨area.base.toNat, area.stop, area.rights⟩ ∈ s.system.memory.spans :=
    List.mem_map_of_mem member
  rw [spans] at listed
  exact Nat.le_trans (LoadedProgram.le_start_of_permits listed allowed) inside.1

/-- The round trip through supervisor mode. Let a user of a loaded program, in any state of his
registers, ask for supervisor mode. The call succeeds, tells him the stack pointer that he had, which
is neither of the two numbers with a meaning of their own, and puts him on the supervisor's stack.
Whatever happens then, when the supervisor gives that stack pointer back, the call takes him to user
mode on the old stack, leaves the supervisor's stack where it was, and changes no bit of the status
but the S bit. -/
theorem mode_round_trip (load : start.load file args = (.ok program, loaded))
    (keeps : ∀ action ∈ before, action.keepsProgram) (here : loaded.performAll before = s)
    (user : s.system.registers.privilege = .user) (asks : s.AsksMode 0) :
    s.system.registers.get .sp ≠ 0 ∧ s.system.registers.get .sp ≠ 1 ∧
      ∃ entered, s.trap Trap.gemdosVector = (.ok .proceed, entered) ∧
        entered.system.registers.get (.data 0) = s.system.registers.get .sp ∧
        entered.system.registers.privilege = .supervisor ∧
        entered.system.registers.get .sp = s.system.registers.get .ssp ∧
        ∀ actions back, entered.performAll actions = back →
          back.system.registers.privilege = .supervisor →
          back.AsksMode (s.system.registers.get .sp) →
          ∃ left, back.trap Trap.gemdosVector = (.ok .proceed, left) ∧
            left.system.registers.privilege = .user ∧
            left.system.registers.get .sp = s.system.registers.get .sp ∧
            left.system.registers.get .ssp = back.system.registers.get .sp ∧
            ∀ bit < 16, bit ≠ 13 →
              (left.system.registers.get .sr).toNat.testBit bit =
                (back.system.registers.get .sr).toNat.testBit bit := by
  have above := le_sp_of_selector load keeps here user asks.code
  have notZero : s.system.registers.get .sp ≠ 0 := by
    intro zero
    rw [Registers.sp_eq_get, zero] at above
    cases above
  have notOne : s.system.registers.get .sp ≠ 1 := by
    intro one
    rw [Registers.sp_eq_get, one] at above
    exact absurd above (by decide)
  refine ⟨notZero, notOne, _, asks.trap_zero, ?_, ?_, ?_, ?_⟩
  · exact Registers.get_set_answer _ _
  · exact (Registers.privilege_set rfl _ _).trans (Registers.privilege_enterMode _ _)
  · exact (Registers.get_set_answer_sp _ _).trans (Registers.get_sp_enterMode _ _)
  intro actions back _ supervisor asksBack
  refine ⟨_, asksBack.trap_stack notZero notOne, ?_, ?_, ?_, fun bit low other => ?_⟩
  · exact Registers.privilege_leave _ _
  · exact Registers.get_sp_leave _ _
  · exact Registers.get_ssp_leave supervisor _
  · exact Registers.testBit_leave _ _ low other

/-- Supervisor mode is asked for with the stack at 0xa20. -/
def enteringMode : List Action :=
  [.registers { address := #v[0, 0, 0, 0, 0, 0, 0, 0xa20], inactiveSp := 0x800 },
    .write 0xa20 [0, 0x20, 0, 0, 0, 0] .user]

/-- The supervisor has moved on his own stack and asks for the other one. -/
def givingStackBack : List Action :=
  [.registers { address := #v[0, 0, 0, 0, 0, 0, 0, 0x7fa], sr := 0x2000, inactiveSp := 0xa20 },
    .write 0x7fa [0, 0x20, 0, 0, 0x0a, 0x20] .supervisor]

def givingBack : Session :=
  ((withInstruction.performAll enteringMode).trap Trap.gemdosVector).2.performAll givingStackBack

set_option maxRecDepth 10000 in
theorem asks_enteringMode :
    (withInstruction.performAll enteringMode).system.arguments.selector = .ok 0x20 ∧
      (withInstruction.performAll enteringMode).system.arguments.long 2 = .ok 0 ∧
      (withInstruction.performAll enteringMode).system.registers.privilege = .user ∧
      (withInstruction.performAll enteringMode).system.registers.get .sp = 0xa20 := by
  rw [withInstruction, loadedAreas, LoadedProgram.areas, LoadedProgram.userArea_eq]
  decide +kernel

set_option maxRecDepth 10000 in
theorem asks_givingBack :
    givingBack.system.arguments.selector = .ok 0x20 ∧
      givingBack.system.arguments.long 2 = .ok 0xa20 ∧
      givingBack.system.registers.privilege = .supervisor ∧
      givingBack.system.registers.get .sp = 0x7fa := by
  rw [givingBack, withInstruction, loadedAreas, LoadedProgram.areas, LoadedProgram.userArea_eq]
  decide +kernel

theorem mode_round_trip_enteringMode :
    ∃ left,
      ((withInstruction.performAll enteringMode).trap Trap.gemdosVector).1 = .ok .proceed ∧
      ((withInstruction.performAll enteringMode).trap Trap.gemdosVector).2.system.registers.get
        (.data 0) = 0xa20 ∧
      givingBack.trap Trap.gemdosVector = (.ok .proceed, left) ∧
      left.system.registers.privilege = .user ∧ left.system.registers.get .sp = 0xa20 ∧
      left.system.registers.get .ssp = 0x7fa := by
  obtain ⟨code, argument, user, sp⟩ := asks_enteringMode
  obtain ⟨codeBack, argumentBack, supervisor, spBack⟩ := asks_givingBack
  have keeps : ∀ action ∈ enteringMode, action.keepsProgram := by decide
  obtain ⟨_, _, entered, called, told, _, _, back⟩ :=
    mode_round_trip load_oneInstruction keeps rfl user ⟨code, argument⟩
  have reached : entered.performAll givingStackBack = givingBack := by rw [givingBack, called]
  rw [sp] at told back
  obtain ⟨left, called', user', sp', ssp', _⟩ :=
    back _ givingBack reached supervisor ⟨codeBack, argumentBack⟩
  rw [called]
  exact ⟨left, rfl, told, called', user', sp', ssp'.trans spBack⟩

end Session

end AtariTos

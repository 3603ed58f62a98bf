import AtariTos.Proofs.Confinement
import AtariTos.Proofs.HeapPlacement
import AtariTos.Proofs.MemoryReads
import AtariTos.Proofs.RegisterBanks

namespace AtariTos

def Suspension.ofRegisters (r : Registers) : Suspension :=
  ⟨preservedRegisters.map r.get, r.privilege⟩

namespace Service

variable {s t : System}

theorem run_callSupervisor (s : System) :
    callSupervisor.run s =
      match s.arguments.long 2 with
      | .error fault => .error (.stop (.fault fault)) s
      | .ok routine =>
        let r := s.registers.enterMode .supervisor
        match s.memory.write (r.sp - 8 + 4) .long s.registers.pc .supervisor with
        | .error fault => .error (.stop (.fault fault)) { s with registers := r }
        | .ok memory =>
          match memory.write (r.sp - 8) .long MemoryMap.trampoline.base .supervisor with
          | .error fault => .error (.stop (.fault fault)) { s with registers := r, memory }
          | .ok memory =>
            .ok 0
              { s with
                registers := r.setAll [(.sp, r.sp - 8), (.pc, routine)]
                memory
                kernel :=
                  { s.kernel with
                    suspended := .ofRegisters s.registers :: s.kernel.suspended } } := by
  unfold callSupervisor
  rw [run_argumentLong_bind]
  cases s.arguments.long 2 with
  | error fault => rfl
  | ok routine =>
    dsimp only
    rw [run_get_bind]
    unfold setRegisters
    rw [run_modify_bind, run_get_bind, run_get_bind, run_orStop_bind]
    dsimp only
    cases s.memory.write ((s.registers.enterMode .supervisor).sp - 8 + 4) .long s.registers.pc
      .supervisor with
    | error fault => rfl
    | ok memory =>
      dsimp only
      rw [run_modify_bind, run_orStop_bind]
      cases memory.write ((s.registers.enterMode .supervisor).sp - 8) .long
        MemoryMap.trampoline.base .supervisor with
      | error fault => rfl
      | ok memory => rfl

/-- The state in which a routine starts that has been called in supervisor mode. -/
structure Enters (s t : System) : Prop where
  sp : t.registers.sp = s.registers.stackPointer .supervisor - 8
  suspended : t.kernel.suspended = .ofRegisters s.registers :: s.kernel.suspended
  pushed : ∃ memory,
    s.memory.write (t.registers.sp + 4) .long s.registers.pc .supervisor = .ok memory ∧
      memory.write t.registers.sp .long MemoryMap.trampoline.base .supervisor = .ok t.memory

theorem sp_setAll_entry (r : Registers) (sp routine : UInt32) :
    (r.setAll [(.sp, sp), (.pc, routine)]).sp = sp :=
  (Registers.get_set_pc rfl (r.set .sp sp) routine).trans (Registers.get_set_self rfl r sp)

theorem enters_of_run {value : UInt32} (ran : callSupervisor.run s = .ok value t) : Enters s t := by
  rw [run_callSupervisor] at ran
  split at ran
  · cases ran
  dsimp only at ran
  split at ran
  · cases ran
  next memory first =>
    split at ran
    · cases ran
    next last second =>
      cases ran
      have sp := sp_setAll_entry (s.registers.enterMode .supervisor)
        ((s.registers.enterMode .supervisor).sp - 8)
      refine ⟨?_, rfl, memory, ?_, ?_⟩
      · rw [sp, Registers.sp_enterMode_supervisor]
      · rw [sp]
        exact first
      · rw [sp]
        exact second

theorem run_callSupervisor_ne_status (s : System) (status : Status) (t : System) :
    callSupervisor.run s ≠ .error (.status status) t := by
  rw [run_callSupervisor]
  intro ran
  split at ran
  · cases ran
  dsimp only at ran
  split at ran
  · cases ran
  · split at ran <;> cases ran

theorem suspended_callSupervisor (s : System) :
    (callSupervisor.after s).kernel.suspended = s.kernel.suspended ∨
      ∃ caller, (callSupervisor.after s).kernel.suspended = caller :: s.kernel.suspended := by
  have ran := run_callSupervisor s
  split at ran
  · exact .inl (by rw [after_of_error ran])
  dsimp only at ran
  split at ran
  · exact .inl (by rw [after_of_error ran])
  · split at ran
    · exact .inl (by rw [after_of_error ran])
    · exact .inr ⟨_, by rw [after_of_ok ran]⟩

end Service

namespace Trap

variable {s t : System} {vector : UInt8} {flow : AfterTrap}

theorem enters_of_serve (asked : routine s vector = .ok .callSupervisor)
    (served : serve vector s = (.ok flow, t)) : Service.Enters s t := by
  obtain ⟨called, asked', ended⟩ := exists_of_serve served
  obtain rfl : Routine.callSupervisor = called := Except.ok.inj (asked.symm.trans asked')
  rw [Routine.run, Service.run_map] at ended
  cases ran : Service.callSupervisor.run s with
  | ok value u =>
    rw [ran] at ended
    obtain ⟨result, u', same, rfl⟩ | ⟨status, u', same, _⟩ := ended
    · cases same
      obtain ⟨sp, suspended, pushed⟩ := Service.enters_of_run ran
      exact ⟨sp, suspended, pushed⟩
    · cases same
  | error failure u =>
    rw [ran] at ended
    obtain ⟨result, u', same, _⟩ | ⟨status, u', same, _⟩ := ended
    · cases same
    · cases same
      exact absurd ran (Service.run_callSupervisor_ne_status s status u)

end Trap

namespace Service.Enters

variable {s t : System}

theorem peek_eq (enters : Enters s t) (ordered : s.memory.Ordered)
    (holds : s.memory.Each Area.HoldsWrites) :
    t.memory.peek (t.registers.sp + 4) .long .supervisor = .ok s.registers.pc ∧
      ∃ area, s.memory.locate (t.registers.sp + 4) 4 .write .supervisor = .ok area := by
  obtain ⟨memory, first, second⟩ := enters.pushed
  have filled : ∀ value, Width.long.encode value ≠ [] := fun _ => List.cons_ne_nil _ _
  have ordered' := ordered.of_layout (ordered.layout_store first)
  have holds' := holds.of_store Area.lasting_holdsWrites first
  obtain ⟨area, located, _⟩ := GuestMemory.locate_of_store (filled _) first
  obtain ⟨area', _, _, located'⟩ :=
    ordered.exists_locate (ordered.layout_store first) located
  obtain ⟨buffer, seen, _⟩ := ordered'.of_locate_write holds' located'
  -- the second address is four bytes further down, also where the stack pointer wraps around
  have apart : (t.registers.sp + 4).toNat + 4 ≤ t.registers.sp.toNat ∨
      t.registers.sp.toNat + 4 ≤ (t.registers.sp + 4).toNat := by
    have bound := t.registers.sp.toNat_lt_size
    have large : UInt32.size = 4294967296 := rfl
    have four : (4 : UInt32).toNat = 4 := rfl
    rw [UInt32.toNat_add, four]
    omega
  have pushed := ordered.peekBytes_of_store holds (filled _) first
  have kept := ordered'.peekBytes_of_apart seen buffer second apart
  rw [GuestMemory.peekBytes_of_locate seen] at pushed
  have shown : t.memory.peekBytes (t.registers.sp + 4) 4 .supervisor =
      .ok (Width.long.encode s.registers.pc) := kept.trans pushed
  refine ⟨?_, area, located⟩
  rw [GuestMemory.peek, show Width.long.bytes = 4 from rfl, shown]
  exact congrArg Except.ok (longOfBytes_encode s.registers.pc)

end Service.Enters

namespace Session

variable {s : Session} {action : Action} {actions : List Action}

theorem suspended_launch (s : Session) :
    s.launch.2.system.kernel.suspended = s.system.kernel.suspended := by
  rw [launch]
  cases s.program with
  | none => rfl
  | some program =>
    dsimp only
    split <;> rfl

theorem suspended_trap (vector : UInt8) (s : Session) :
    (s.trap vector).2.system.kernel.suspended = s.system.kernel.suspended ∨
      ∃ caller, (s.trap vector).2.system.kernel.suspended =
        caller :: s.system.kernel.suspended := by
  change (Trap.serve vector s.system).2.kernel.suspended = _ ∨
    ∃ caller, (Trap.serve vector s.system).2.kernel.suspended = _
  rcases Trap.exists_after_serve vector s.system with same | ⟨called, registers, _, same⟩
  · exact .inl (by rw [same])
  · rw [same]
    by_cases outside : .suspended ∉ called.parts
    · exact .inl (called.run_touches s.system .suspended outside)
    · cases called with
      | callSupervisor =>
        rw [Routine.run, Service.after_map]
        exact Service.suspended_callSupervisor s.system
      | _ => exact absurd (by decide) outside

theorem suspended_resumeCaller (s : Session) :
    s.resumeCaller.2.system.kernel.suspended = s.system.kernel.suspended ∨
      ∃ caller, s.system.kernel.suspended =
        caller :: s.resumeCaller.2.system.kernel.suspended := by
  rw [resumeCaller]
  dsimp only
  split
  · exact .inl rfl
  · split
    · exact .inl rfl
    next caller waiting pending =>
      refine .inr ⟨caller, ?_⟩
      rw [pending]
      split <;> rfl

theorem suspended_perform (keeps : action.keepsProgram) :
    (s.perform action).system.kernel.suspended = s.system.kernel.suspended ∨
      (∃ caller, (s.perform action).system.kernel.suspended =
        caller :: s.system.kernel.suspended) ∨
      ∃ caller, s.system.kernel.suspended =
        caller :: (s.perform action).system.kernel.suspended := by
  cases action with
  | load file args => cases keeps
  | close => cases keeps
  | registers registers => exact .inl rfl
  | type input => exact .inl rfl
  | launch => exact .inl (suspended_launch s)
  | read addr count mode =>
    left
    rw [perform]
    split <;> rfl
  | write addr data mode =>
    left
    rw [perform]
    split <;> rfl
  | trap vector => exact (suspended_trap vector s).imp_right .inl
  | resume => exact (suspended_resumeCaller s).imp_right .inr

/-- As long as no more callers have gone on than have been suspended since, the callers that waited
at the start still wait. -/
theorem suspended_performAll {base : List Suspension}
    (keeps : ∀ action ∈ actions, action.keepsProgram)
    (below : base <:+ s.system.kernel.suspended)
    (pending : ∀ early, early <+: actions →
      base.length ≤ (s.performAll early).system.kernel.suspended.length) :
    base <:+ (s.performAll actions).system.kernel.suspended := by
  induction actions using List.reverseRecOn with
  | nil => exact below
  | append_singleton past action ih =>
    have kept := ih (fun a ha => keeps a (List.mem_append_left _ ha))
      fun early before => pending early (before.trans (List.prefix_append past [action]))
    have left := pending (past ++ [action]) (List.prefix_refl _)
    rw [performAll_concat] at left ⊢
    have member : action ∈ past ++ [action] := List.mem_append_right _ (List.mem_singleton_self _)
    rcases suspended_perform (s := s.performAll past) (keeps action member) with
      same | ⟨caller, same⟩ | ⟨caller, same⟩
    · rwa [same]
    · rw [same]
      exact kept.trans (List.suffix_cons _ _)
    · rw [same, List.suffix_cons_iff] at kept
      rcases kept with popped | kept
      · rw [popped, List.length_cons] at left
        omega
      · exact kept

/-- A routine that was entered in supervisor mode has returned to the trampoline. On the way there
its caller has waited all the time, and calls that were nested in it have returned as well. The
stack pointer is past the first return address, and the second one is untouched. -/
structure Returned (s entered : Session) (actions : List Action) (back : Session) : Prop where
  reached : entered.performAll actions = back
  keeps : ∀ action ∈ actions, action.keepsProgram
  waits : ∀ early, early <+: actions →
    s.system.kernel.suspended.length < (entered.performAll early).system.kernel.suspended.length
  nested : back.system.kernel.suspended.length = s.system.kernel.suspended.length + 1
  supervisor : back.system.registers.privilege = .supervisor
  pc : back.system.registers.pc = 0x200
  sp : back.system.registers.sp = entered.system.registers.sp + 4
  untouched : back.system.memory.peek back.system.registers.sp .long .supervisor =
    entered.system.memory.peek back.system.registers.sp .long .supervisor

variable {start loaded entered back : Session} {file : Bytes} {args : List String}
  {program : LoadedProgram} {before : List Action} {vector : UInt8}

theorem enters_of_trap (asked : Trap.routine s.system vector = .ok .callSupervisor)
    (called : s.trap vector = (.ok .proceed, entered)) :
    Service.Enters s.system entered.system := by
  rcases served : Trap.serve vector s.system with ⟨outcome, t⟩
  rw [trap, served] at called
  cases outcome with
  | error cause => cases called
  | ok flow =>
    cases called
    exact Trap.enters_of_serve asked served

theorem Returned.suspended_eq (returned : Returned s entered actions back)
    (enters : Service.Enters s.system entered.system) :
    back.system.kernel.suspended =
      .ofRegisters s.system.registers :: s.system.kernel.suspended := by
  have kept := suspended_performAll (s := entered) returned.keeps
    (List.suffix_refl entered.system.kernel.suspended) fun early before => by
      have waits := returned.waits early before
      rw [enters.suspended, List.length_cons]
      exact waits
  rw [returned.reached, enters.suspended] at kept
  have length := returned.nested
  exact (kept.eq_of_length (by rw [length, List.length_cons])).symm

theorem Returned.exists_read (returned : Returned s entered actions back)
    (ordered : s.system.memory.Ordered) (holds : s.system.memory.Each Area.HoldsWrites)
    (called : (s.trap vector).2 = entered)
    (enters : Service.Enters s.system entered.system) :
    back.system.memory.read back.system.registers.sp .long .supervisor =
      .ok (s.system.registers.pc, back.system.memory) := by
  obtain ⟨shown, area, located⟩ := enters.peek_eq ordered holds
  have reached := returned.reached
  subst reached called
  -- the call is the first action of the run that leads back
  have keeps : ∀ action ∈ .trap vector :: actions, action.keepsProgram :=
    List.forall_mem_cons.mpr ⟨rfl, returned.keeps⟩
  have layout := layout_performAll ordered keeps
  have holds' := holdsWrites_performAll holds (.trap vector :: actions)
  obtain ⟨area', _, _, located'⟩ := ordered.exists_locate layout located
  have seen := returned.untouched
  rw [returned.sp] at seen ⊢
  exact (ordered.of_layout layout).read_of_peek holds' located' (seen.trans shown)

/-- The round trip of a routine called in supervisor mode. In any state of a loaded program, of a
user or a supervisor, let such a call succeed and the routine return later, whatever has happened in
between and however many such calls have been nested. Then its caller goes on where it was, with the
privilege, the registers D3 to D7 and A3 to A6 and the stack pointers that it had, but for a user
stack pointer that has been changed meanwhile; the other registers are as the routine has left them,
and the callers wait that waited before. -/
theorem resumeCaller_of_returned (load : start.load file args = (.ok program, loaded))
    (keeps : ∀ action ∈ before, action.keepsProgram) (here : loaded.performAll before = s)
    (asked : Trap.routine s.system vector = .ok .callSupervisor)
    (called : s.trap vector = (.ok .proceed, entered))
    (returned : Returned s entered actions back) :
    ∃ after, back.resumeCaller = (.ok true, after) ∧
      after.system.registers.pc = s.system.registers.pc ∧
      after.system.registers.privilege = s.system.registers.privilege ∧
      (∀ register ∈ ([.data 3, .data 4, .data 5, .data 6, .data 7,
          .address 3, .address 4, .address 5, .address 6] : List Register),
        after.system.registers.get register = s.system.registers.get register) ∧
      (∀ n : Fin 8, n < 3 →
        after.system.registers.get (.data n) = back.system.registers.get (.data n) ∧
        after.system.registers.get (.address n) = back.system.registers.get (.address n)) ∧
      after.system.registers.get .ssp = s.system.registers.get .ssp ∧
      (back.system.registers.get .usp = s.system.registers.get .usp →
        after.system.registers.get .sp = s.system.registers.get .sp) ∧
      after.system.kernel.suspended = s.system.kernel.suspended := by
  have ordered : s.system.memory.Ordered := here ▸ ordered_of_load load keeps
  have holds : s.system.memory.Each Area.HoldsWrites := here ▸ holdsWrites_of_load load before
  have enters := enters_of_trap asked called
  have suspended := returned.suspended_eq enters
  have read := returned.exists_read ordered holds (by rw [called]) enters
  have restored : Restored back.system.registers s.system.registers s.system.registers.pc
      (restore back.system.registers (.ofRegisters s.system.registers) s.system.registers.pc) :=
    restored_restore returned.supervisor rfl rfl _
  have ssp : back.system.registers.sp + 4 = s.system.registers.stackPointer .supervisor := by
    rw [returned.sp, enters.sp]
    grind
  have trampoline : back.system.registers.pc = MemoryMap.trampoline.base := returned.pc
  have listed : ∀ register ∈ ([.data 3, .data 4, .data 5, .data 6, .data 7,
      .address 3, .address 4, .address 5, .address 6] : List Register),
      register ∈ preservedRegisters := by
    decide +kernel
  have scratch : ∀ n : Fin 8, n < 3 → Register.data n ∉ preservedRegisters ∧
      Register.address n ∉ preservedRegisters ∧ Register.address n ≠ .sp := by
    decide +kernel
  refine ⟨{ back with
      system := { back.system with
        registers := restore back.system.registers (.ofRegisters s.system.registers)
          s.system.registers.pc
        kernel := { back.system.kernel with suspended := s.system.kernel.suspended } } },
    ?_, restored.pc, restored.privilege,
    fun register member => restored.preserved register (listed register member), fun n low => ?_,
    restored.supervisor.trans ssp, fun unchanged => ?_, rfl⟩
  · unfold resumeCaller
    dsimp only
    rw [if_neg (not_not.mpr trampoline), suspended]
    dsimp only
    rw [read]
  · obtain ⟨offData, offAddress, ne⟩ := scratch n low
    exact ⟨restored.others _ rfl (fun same => by cases same) offData,
      restored.others _ rfl ne offAddress⟩
  · rw [← Registers.sp_eq_get, ← Registers.sp_eq_get, Registers.sp_eq_stackPointer,
      Registers.sp_eq_stackPointer s.system.registers, restored.privilege]
    cases s.system.registers.privilege with
    | user => exact restored.user.trans unchanged
    | supervisor => exact restored.supervisor.trans ssp

def beforeCall : Registers where
  data := #v[0, 0, 0, 7, 8, 9, 10, 11]
  address := #v[0, 0, 0, 13, 14, 15, 16, 0xa40]
  pc := 0x902
  inactiveSp := 0x800

/-- The registers when the routine returns, which has left five in D0 and spoiled all the others. -/
def afterRoutine : Registers where
  data := #v[5, 1, 1, 1, 1, 1, 1, 1]
  address := #v[1, 1, 1, 1, 1, 1, 1, 0x7fc]
  pc := 0x200
  sr := 0x2000
  inactiveSp := 0xa40

def callingRoutine : List Action :=
  [.registers beforeCall, .write 0xa40 [0, 0x26, 0, 0, 0x09, 0] .user]

set_option maxRecDepth 10000 in
theorem calls_callingRoutine :
    Trap.routine (withInstruction.performAll callingRoutine).system Trap.xbiosVector =
        .ok .callSupervisor ∧
      ((withInstruction.performAll callingRoutine).trap Trap.xbiosVector).1 = .ok .proceed ∧
      (withInstruction.performAll callingRoutine).system.registers = beforeCall ∧
      (withInstruction.performAll callingRoutine).system.kernel.suspended = [] := by
  rw [withInstruction, loadedAreas, LoadedProgram.areas, LoadedProgram.userArea_eq]
  decide +kernel

theorem returned_afterRoutine {s entered : Session} (before : s.system.registers = beforeCall)
    (none : s.system.kernel.suspended = [])
    (enters : Service.Enters s.system entered.system) :
    Returned s entered [.registers afterRoutine]
      { entered with system.registers := afterRoutine } := by
  have waiting : entered.system.kernel.suspended.length = 1 := by
    rw [enters.suspended, none]
    rfl
  have waits : ∀ early, early <+: [.registers afterRoutine] →
      (entered.performAll early).system.kernel.suspended.length = 1 := by
    intro early shorter
    rcases List.prefix_cons_iff.mp shorter with rfl | ⟨rest, rfl, nothing⟩
    · exact waiting
    · obtain rfl := List.prefix_nil.mp nothing
      exact waiting
  have sp : entered.system.registers.sp = 0x7f8 := by
    rw [enters.sp, before]
    decide
  have supervisor : afterRoutine.privilege = .supervisor := by decide
  refine ⟨rfl, by decide, fun early shorter => ?_, ?_, supervisor, rfl, ?_, rfl⟩
  · rw [waits early shorter, none]
    exact Nat.zero_lt_one
  · rw [none]
    exact waiting
  · rw [sp]
    rfl

theorem resumeCaller_of_returned_afterRoutine :
    ∃ entered after,
      (withInstruction.performAll callingRoutine).trap Trap.xbiosVector =
        (.ok .proceed, entered) ∧
      { entered with system.registers := afterRoutine }.resumeCaller = (.ok true, after) ∧
      after.system.registers.pc = 0x902 ∧ after.system.registers.get (.data 0) = 5 ∧
      (∀ e ∈ [(.data 3, 7), (.data 4, 8), (.data 5, 9), (.data 6, 10), (.data 7, 11),
          (.address 3, 13), (.address 4, 14), (.address 5, 15), (.address 6, 16)],
        after.system.registers.get e.1 = e.2) ∧
      after.system.registers.get .sp = 0xa40 := by
  obtain ⟨asked, proceeds, before, none⟩ := calls_callingRoutine
  rcases called : (withInstruction.performAll callingRoutine).trap Trap.xbiosVector with
    ⟨outcome, entered⟩
  rw [called] at proceeds
  obtain rfl : outcome = .ok .proceed := proceeds
  have keeps : ∀ action ∈ callingRoutine, action.keepsProgram := by decide
  have returned := returned_afterRoutine before none (enters_of_trap asked called)
  obtain ⟨after, resumed, pc, _, preserved, scratch, _, sp, _⟩ :=
    resumeCaller_of_returned load_oneInstruction keeps rfl asked called returned
  rw [before] at pc preserved sp
  have usp : afterRoutine.get .usp = beforeCall.get .usp := by decide
  refine ⟨entered, after, rfl, resumed, pc, (scratch 0 (by decide)).1, fun e member => ?_,
    (sp usp).trans (by decide)⟩
  have held : ∀ e ∈ [(.data 3, 7), (.data 4, 8), (.data 5, 9), (.data 6, 10), (.data 7, 11),
      (.address 3, 13), (.address 4, 14), (.address 5, 15), (.address 6, 16)],
      beforeCall.get e.1 = e.2 := by
    decide +kernel
  exact (preserved e.1 (List.mem_map_of_mem member)).trans (held e member)

end Session

end AtariTos

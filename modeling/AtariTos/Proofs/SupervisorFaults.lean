import AtariTos.Proofs.CallFailures
import AtariTos.Proofs.SuccessivePrograms
import AtariTos.Proofs.SupervisorCalls

namespace AtariTos

theorem Privilege.or_statusBit_of_supervisor {sr : UInt32} (h : ofStatus sr = .supervisor) :
    sr ||| statusBit = sr := by
  have power : statusBit.toNat = 2 ^ 13 := rfl
  have bit : sr.toNat.testBit 13 = true := by
    rw [testBit_status, h]
    rfl
  apply UInt32.toNat_inj.mp
  rw [UInt32.toNat_or, power]
  refine Nat.eq_of_testBit_eq fun i => ?_
  rw [Nat.testBit_or, Nat.testBit_two_pow]
  by_cases here : 13 = i
  · rw [← here, bit, Bool.true_or]
  · rw [decide_eq_false here, Bool.or_false]

namespace Registers

variable {r : Registers}

/-- Nothing changes only for who is in supervisor mode already, with a status of sixteen bits. -/
theorem enterMode_supervisor_eq_self_iff :
    r.enterMode .supervisor = r ↔ r.privilege = .supervisor ∧ r.sr &&& 0xffff = r.sr := by
  constructor
  · intro same
    have privilege := r.privilege_enterMode .supervisor
    have short : (r.enterMode .supervisor).sr = (r.sr ||| Privilege.statusBit) &&& 0xffff :=
      r.sr_setStatus _
    rw [same] at privilege short
    refine ⟨privilege, ?_⟩
    rw [short, UInt32.and_assoc, UInt32.and_self]
  · rintro ⟨supervisor, short⟩
    have kept : Privilege.ofStatus (r.sr &&& 0xffff) = r.privilege := by rw [short, privilege]
    rw [enterMode, Privilege.or_statusBit_of_supervisor supervisor, setStatus, if_pos kept, short]

end Registers

/-- Registers, guest memory and waiting callers are the same in two states. -/
structure System.Unmoved (s t : System) : Prop where
  registers : t.registers = s.registers
  memory : t.memory = s.memory
  suspended : t.kernel.suspended = s.kernel.suspended

namespace Service

variable {s t : System} {fault : Fault}

/-- Stores the address of a caller where a routine in supervisor mode finds it in the end. -/
def pushCaller (s : System) : Except Fault GuestMemory :=
  s.memory.write (s.registers.stackPointer .supervisor - 8 + 4) .long s.registers.pc .supervisor

/-- What is left of a call in supervisor mode that stops with a fault: where the argument cannot be
fetched nothing is changed, where the first return address cannot be stored the privilege is raised,
and where the second one cannot be stored the first one is on the stack as well. -/
inductive FaultsOnEntry (s : System) : Fault → System → Prop
  | argument {fault : Fault} (missing : s.arguments.long 2 = .error fault) :
    FaultsOnEntry s fault s
  | caller {routine : UInt32} {fault : Fault} (fetched : s.arguments.long 2 = .ok routine)
    (denied : pushCaller s = .error fault) :
    FaultsOnEntry s fault { s with registers := s.registers.enterMode .supervisor }
  | trampoline {routine : UInt32} {memory : GuestMemory} {fault : Fault}
    (fetched : s.arguments.long 2 = .ok routine) (pushed : pushCaller s = .ok memory)
    (denied : memory.write (s.registers.stackPointer .supervisor - 8) .long
      MemoryMap.trampoline.base .supervisor = .error fault) :
    FaultsOnEntry s fault { s with registers := s.registers.enterMode .supervisor, memory }

theorem run_callSupervisor_eq_stop_iff {cause : StopCause} :
    callSupervisor.run s = .error (.stop cause) t ↔
      ∃ fault, cause = .fault fault ∧ FaultsOnEntry s fault t := by
  have pushes : s.memory.write (s.registers.stackPointer .supervisor - 8 + 4) .long
      s.registers.pc .supervisor = pushCaller s := rfl
  rw [run_callSupervisor]
  dsimp only
  rw [Registers.sp_enterMode_supervisor, pushes]
  constructor
  · intro ran
    split at ran
    next fault missing =>
      cases ran
      exact ⟨fault, rfl, .argument missing⟩
    next routine fetched =>
      split at ran
      next fault denied =>
        cases ran
        exact ⟨fault, rfl, .caller fetched denied⟩
      next memory pushed =>
        split at ran
        next fault denied =>
          cases ran
          exact ⟨fault, rfl, .trampoline fetched pushed denied⟩
        · cases ran
  · rintro ⟨fault, rfl, stopped⟩
    cases stopped with
    | argument missing => rw [missing]
    | caller fetched denied => rw [fetched, denied]
    | trampoline fetched pushed denied =>
      rw [fetched, pushed]
      dsimp only
      rw [denied]

/-- A call in supervisor mode that stops leaves no trace exactly if its argument cannot be fetched,
or if the caller is a supervisor itself and the first return address cannot be stored or lies on the
stack already. -/
theorem FaultsOnEntry.unmoved_iff (stopped : FaultsOnEntry s fault t) :
    s.Unmoved t ↔
      (∃ fault, s.arguments.long 2 = .error fault) ∨
        (s.registers.privilege = .supervisor ∧ s.registers.sr &&& 0xffff = s.registers.sr) ∧
          ∀ memory, pushCaller s = .ok memory → memory = s.memory := by
  rw [← Registers.enterMode_supervisor_eq_self_iff]
  cases stopped with
  | argument missing => exact iff_of_true ⟨rfl, rfl, rfl⟩ (.inl ⟨_, missing⟩)
  | caller fetched denied =>
    constructor
    · rintro ⟨registers, _, _⟩
      refine .inr ⟨registers, fun memory pushed => ?_⟩
      rw [denied] at pushed
      cases pushed
    · rintro (⟨other, missing⟩ | ⟨registers, _⟩)
      · rw [fetched] at missing
        cases missing
      · exact ⟨registers, rfl, rfl⟩
  | trampoline fetched pushed denied =>
    constructor
    · rintro ⟨registers, memory, _⟩
      refine .inr ⟨registers, fun other pushed' => ?_⟩
      rw [pushed] at pushed'
      cases pushed'
      exact memory
    · rintro (⟨other, missing⟩ | ⟨registers, same⟩)
      · rw [fetched] at missing
        cases missing
      · exact ⟨registers, same _ pushed, rfl⟩

end Service

namespace Session

variable {s t : Session} {vector : UInt8} {stop : Stop}

theorem faultsOnEntry_of_trap (asked : Trap.routine s.system vector = .ok .callSupervisor)
    (stopped : s.trap vector = (.error stop, t)) :
    ∃ fault, stop = ⟨s.system.registers.pc, .fault fault⟩ ∧
      Service.FaultsOnEntry s.system fault t.system := by
  rw [trap_of_map asked rfl] at stopped
  split at stopped
  · cases stopped
  · cases stopped
  next cause u ran =>
    cases stopped
    obtain ⟨fault, rfl, entry⟩ := Service.run_callSupervisor_eq_stop_iff.mp ran
    exact ⟨fault, rfl, entry⟩

theorem error_of_resumeCaller (stopped : s.resumeCaller = (.error stop, t)) :
    ∃ caller fault, stop = ⟨MemoryMap.trampoline.base, .fault fault⟩ ∧
      s.system.memory.read s.system.registers.sp .long .supervisor = .error fault ∧
      s.system.kernel.suspended = caller :: t.system.kernel.suspended ∧
      t = { s with system.kernel.suspended := t.system.kernel.suspended } := by
  unfold resumeCaller at stopped
  dsimp only at stopped
  split at stopped
  · cases stopped
  · split at stopped
    · cases stopped
    next caller waiting pending =>
      split at stopped
      next fault unread =>
        cases stopped
        exact ⟨caller, fault, rfl, unread, pending, rfl⟩
      · cases stopped

/-- What is left when emulation stops on the way into a routine in supervisor mode or on the way
back, in any state whatever. On the way in it stops with a fault, at one of three places; registers,
memory and waiting callers are as they were exactly if that is the fetching of the argument, or if
the caller is a supervisor itself and the first return address cannot be stored or changes nothing.
On the way back the registers and memory are as they were, and the latest caller is gone. -/
theorem unmoved_iff_of_stopped (s : Session) :
    (∀ vector stop t, Trap.routine s.system vector = .ok .callSupervisor →
      s.trap vector = (.error stop, t) →
        (∃ fault, stop = ⟨s.system.registers.pc, .fault fault⟩ ∧
          Service.FaultsOnEntry s.system fault t.system) ∧
        (s.system.Unmoved t.system ↔
          (∃ fault, s.system.arguments.long 2 = .error fault) ∨
            (s.system.registers.privilege = .supervisor ∧
              s.system.registers.sr &&& 0xffff = s.system.registers.sr) ∧
            ∀ memory, Service.pushCaller s.system = .ok memory → memory = s.system.memory)) ∧
    ∀ stop t, s.resumeCaller = (.error stop, t) →
      (∃ fault, stop = ⟨MemoryMap.trampoline.base, .fault fault⟩ ∧
        s.system.memory.read s.system.registers.sp .long .supervisor = .error fault) ∧
      t.system.registers = s.system.registers ∧ t.system.memory = s.system.memory ∧
      (∃ caller, s.system.kernel.suspended = caller :: t.system.kernel.suspended) ∧
      ¬s.system.Unmoved t.system := by
  constructor
  · intro vector stop t asked stopped
    obtain ⟨fault, cause, entry⟩ := faultsOnEntry_of_trap asked stopped
    exact ⟨⟨fault, cause, entry⟩, entry.unmoved_iff⟩
  · intro stop t stopped
    obtain ⟨caller, fault, cause, unread, pending, same⟩ := error_of_resumeCaller stopped
    refine ⟨⟨fault, cause, unread⟩, by rw [same], by rw [same], ⟨caller, pending⟩, ?_⟩
    rintro ⟨_, _, waiting⟩
    rw [pending] at waiting
    exact List.cons_ne_self _ _ waiting.symm

/-- A user asks for a routine in supervisor mode, with the two stacks and what is on its own. -/
def asking (usp ssp : UInt32) (frame : List UInt8) : List Action :=
  [.registers
      { beforeCall with address := #v[0, 0, 0, 0, 0, 0, 0, usp], inactiveSp := ssp },
    .write usp frame .user]

/-- The stack of the user ends before the argument. -/
def withoutArgument : List Action :=
  asking 0x12fe 0x800 [0, 0x26]

/-- The stack of the supervisor has room for one return address only. -/
def withoutRoom : List Action :=
  asking 0xa40 0x384 [0, 0x26, 0, 0, 0x09, 0]

/-- The routine returns with a stack pointer that points nowhere. -/
def returningNowhere : List Action :=
  asking 0xa40 0x800 [0, 0x26, 0, 0, 0x09, 0] ++
    [.trap Trap.xbiosVector,
      .registers { afterRoutine with address := #v[0, 0, 0, 0, 0, 0, 0, 0x300] }]

set_option maxRecDepth 10000 in
theorem stops_withoutArgument :
    Trap.routine (withInstruction.performAll withoutArgument).system Trap.xbiosVector =
        .ok .callSupervisor ∧
      ((withInstruction.performAll withoutArgument).trap Trap.xbiosVector).1 =
        .error ⟨0x902, .fault (.unmapped 0x1300)⟩ ∧
      (withInstruction.performAll withoutArgument).system.arguments.long 2 =
        .error (.unmapped 0x1300) := by
  rw [withInstruction, loadedAreas, LoadedProgram.areas, LoadedProgram.userArea_eq]
  decide +kernel

set_option maxRecDepth 10000 in
theorem stops_withoutRoom :
    Trap.routine (withInstruction.performAll withoutRoom).system Trap.xbiosVector =
        .ok .callSupervisor ∧
      ((withInstruction.performAll withoutRoom).trap Trap.xbiosVector).1 =
        .error ⟨0x902, .fault (.unmapped 0x37c)⟩ ∧
      (withInstruction.performAll withoutRoom).system.registers.privilege = .user ∧
      ((withInstruction.performAll withoutRoom).trap
        Trap.xbiosVector).2.system.registers.privilege = .supervisor ∧
      (withInstruction.performAll withoutRoom).system.memory.peek 0x380 .long .supervisor =
        .ok 0 ∧
      ((withInstruction.performAll withoutRoom).trap
        Trap.xbiosVector).2.system.memory.peek 0x380 .long .supervisor = .ok 0x902 := by
  rw [withInstruction, loadedAreas, LoadedProgram.areas, LoadedProgram.userArea_eq]
  decide +kernel

set_option maxRecDepth 10000 in
theorem stops_returningNowhere :
    (withInstruction.performAll returningNowhere).resumeCaller.1 =
        .error ⟨0x200, .fault (.unmapped 0x300)⟩ ∧
      (withInstruction.performAll returningNowhere).system.kernel.suspended ≠ [] ∧
      (withInstruction.performAll returningNowhere).resumeCaller.2.system.kernel.suspended =
        [] := by
  rw [withInstruction, loadedAreas, LoadedProgram.areas, LoadedProgram.userArea_eq]
  decide +kernel

theorem unmoved_iff_of_stopped_withoutArgument :
    (∃ stop t, (withInstruction.performAll withoutArgument).trap Trap.xbiosVector =
        (.error stop, t) ∧
      (withInstruction.performAll withoutArgument).system.Unmoved t.system) ∧
    ∃ stop t, (withInstruction.performAll returningNowhere).resumeCaller = (.error stop, t) ∧
      t.system.registers = (withInstruction.performAll returningNowhere).system.registers ∧
      ¬(withInstruction.performAll returningNowhere).system.Unmoved t.system := by
  constructor
  · obtain ⟨asked, stopped, missing⟩ := stops_withoutArgument
    rcases trapped : (withInstruction.performAll withoutArgument).trap Trap.xbiosVector with
      ⟨outcome, t⟩
    rw [trapped] at stopped
    obtain rfl : outcome = .error ⟨0x902, .fault (.unmapped 0x1300)⟩ := stopped
    have left := (unmoved_iff_of_stopped _).1 _ _ _ asked trapped
    exact ⟨_, t, rfl, left.2.mpr (.inl ⟨_, missing⟩)⟩
  · rcases resumed : (withInstruction.performAll returningNowhere).resumeCaller with ⟨outcome, t⟩
    have stopped := stops_returningNowhere.1
    rw [resumed] at stopped
    obtain rfl : outcome = .error ⟨0x200, .fault (.unmapped 0x300)⟩ := stopped
    obtain ⟨_, registers, _, _, moved⟩ := (unmoved_iff_of_stopped _).2 _ _ resumed
    exact ⟨_, t, rfl, registers, moved⟩

/-- A call stops in supervisor mode and with the first return address in memory, and a return stops
without the caller that it is for. -/
theorem not_unmoved_withoutRoom :
    Trap.routine (littleMemory.performAll (.load oneInstruction [] :: withoutRoom)).system
        Trap.xbiosVector = .ok .callSupervisor ∧
    (∃ stop t, (littleMemory.performAll (.load oneInstruction [] :: withoutRoom)).trap
        Trap.xbiosVector = (.error stop, t) ∧
      t.system.registers ≠
        (littleMemory.performAll (.load oneInstruction [] :: withoutRoom)).system.registers ∧
      t.system.memory ≠
        (littleMemory.performAll (.load oneInstruction [] :: withoutRoom)).system.memory) ∧
    ∃ stop t, (littleMemory.performAll (.load oneInstruction [] :: returningNowhere)).resumeCaller =
        (.error stop, t) ∧
      t.system.kernel.suspended ≠ (littleMemory.performAll
        (.load oneInstruction [] :: returningNowhere)).system.kernel.suspended := by
  rw [performAll_oneInstruction, performAll_oneInstruction]
  refine ⟨stops_withoutRoom.1, ?_, ?_⟩
  · obtain ⟨_, stopped, user, raised, empty, pushed⟩ := stops_withoutRoom
    rcases trapped : (withInstruction.performAll withoutRoom).trap Trap.xbiosVector with
      ⟨outcome, t⟩
    rw [trapped] at stopped raised pushed
    obtain rfl : outcome = .error ⟨0x902, .fault (.unmapped 0x37c)⟩ := stopped
    refine ⟨_, t, rfl, fun same => ?_, fun same => ?_⟩
    · rw [same, user] at raised
      cases raised
    · rw [same, empty] at pushed
      cases pushed
  · obtain ⟨stopped, waiting, gone⟩ := stops_returningNowhere
    rcases resumed : (withInstruction.performAll returningNowhere).resumeCaller with ⟨outcome, t⟩
    rw [resumed] at stopped gone
    obtain rfl : outcome = .error ⟨0x200, .fault (.unmapped 0x300)⟩ := stopped
    refine ⟨_, t, rfl, fun same => waiting ?_⟩
    rw [← same]
    exact gone

end Session

end AtariTos

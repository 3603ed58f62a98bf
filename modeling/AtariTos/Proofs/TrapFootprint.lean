import AtariTos.Proofs.CallMemory
import AtariTos.Proofs.TrapEffects

namespace AtariTos

namespace Routine

/-- The vector and the code of a call that changes registers or guest memory. -/
def signature? : Routine → Option (UInt8 × UInt16)
  | .readString => some (Trap.gemdosVector, 0x0a)
  | .switchMode => some (Trap.gemdosVector, 0x20)
  | .readFile => some (Trap.gemdosVector, 0x3f)
  | .currentDirectory => some (Trap.gemdosVector, 0x47)
  | .fileTime => some (Trap.gemdosVector, 0x57)
  | .exceptionVector => some (Trap.biosVector, 0x05)
  | .callSupervisor => some (Trap.xbiosVector, 0x26)
  | _ => none

/-- Wherever a table declares a routine with a signature, it is that of the signature. -/
def fits (vector : UInt8) (call : Call Routine) : Bool :=
  (call.handler.bind signature?).all (· = (vector, call.code))

end Routine

namespace Trap

variable {s t : System} {vector : UInt8} {called : Routine} {flow : AfterTrap}
  {fault? : Option HostFault}

theorem calls_fit {table : CallTable Routine} (h : calls vector = .ok table) :
    ∀ call ∈ table.calls, Routine.fits vector call = true := by
  obtain ⟨rfl, rfl⟩ | ⟨rfl, rfl⟩ | ⟨rfl, rfl⟩ := calls_eq_ok h
  all_goals exact List.all_eq_true.mp (by decide)

theorem eq_of_signature? {code c : UInt16} {v : UInt8} (h : routine s vector = .ok called)
    (selected : s.arguments.selector = .ok code) (signature : called.signature? = some (v, c)) :
    vector = v ∧ code = c := by
  obtain ⟨table, behind, call, member, selected', handler⟩ := exists_call h
  have same : code = call.code := Except.ok.inj (selected.symm.trans selected')
  have fits := calls_fit behind call member
  rw [Routine.fits, handler, Option.bind_some, signature, Option.all_some, decide_eq_true_eq,
    Prod.mk.injEq] at fits
  exact ⟨fits.1.symm, same.trans fits.2.symm⟩

/-- The addresses at which a call that succeeds may change guest memory, with its result in D0. -/
def footprint (vector : UInt8) (code : UInt16) (s : System) (result : UInt32) : Set Nat :=
  match vector, code with
  | 0x21, 0x0a => Routine.readString.footprint s result
  | 0x21, 0x3f => Routine.readFile.footprint s result
  | 0x21, 0x47 => Routine.currentDirectory.footprint s result
  | 0x21, 0x57 => Routine.fileTime.footprint s result
  | 0x2d, 0x05 => Routine.exceptionVector.footprint s result
  | 0x2e, 0x26 => Routine.callSupervisor.footprint s result
  | _, _ => ∅

theorem footprint_subset {code : UInt16} {result : UInt32} (h : routine s vector = .ok called)
    (selected : s.arguments.selector = .ok code) :
    called.footprint s result ⊆ footprint vector code s result := by
  cases called with
  | readString | readFile | currentDirectory | fileTime | exceptionVector | callSupervisor =>
    obtain ⟨rfl, rfl⟩ := eq_of_signature? h selected rfl
    exact subset_rfl
  | _ => exact Set.empty_subset _

theorem registers_of_serve (served : serve vector s fault? = (.ok flow, t))
    (asked : routine s vector = .ok called) (user : called ≠ .switchMode)
    (user' : called ≠ .callSupervisor) {register : Register} (other : register ≠ .answer) :
    t.registers.get register = s.registers.get register := by
  obtain ⟨called', value, asked', rfl⟩ := exists_answer_of_serve served
  obtain rfl : called = called' := Except.ok.inj (asked.symm.trans asked')
  have outside : .registers ∉ called.parts := by
    cases called <;> first | decide | exact absurd rfl user | exact absurd rfl user'
  have same : ((called.run fault?).after s).registers = s.registers :=
    called.touches_run fault? s .registers outside
  rw [answer, Registers.get_set_answer_of_ne other, same]

/-- What a trap leaves as it was, unless it stops emulation. Apart from two calls, which switch to
another privilege, it changes no register but D0. A byte of guest memory changes only if the call
succeeds and the byte belongs to the footprint of the call; and but for two calls, which write as
the supervisor, the caller may write to that byte. No area of guest memory comes, goes or changes
its place, length or rights. -/
theorem serve_footprint (ordered : s.memory.Ordered)
    (served : serve vector s fault? = (.ok flow, t)) :
    ∃ called code, routine s vector = .ok called ∧ s.arguments.selector = .ok code ∧
      (¬(vector = gemdosVector ∧ code = 0x20) → ¬(vector = xbiosVector ∧ code = 0x26) →
        ∀ register, register ≠ .answer → t.registers.get register = s.registers.get register) ∧
      (∀ addr, s.memory.SteadyAt addr → t.memory.byteAt? addr ≠ s.memory.byteAt? addr →
        (∃ result after, (called.run fault?).run s = .ok result after) ∧
        addr.toNat ∈ footprint vector code s (t.registers.get .answer) ∧
        (¬(vector = biosVector ∧ code = 0x05) → ¬(vector = xbiosVector ∧ code = 0x26) →
          addr.toNat ∈ s.memory.writable s.registers.privilege)) ∧
      t.memory.layout = s.memory.layout := by
  obtain ⟨called, asked, ended⟩ := exists_of_serve served
  obtain ⟨table, code, _, selected, _⟩ := exists_code asked
  have kept := called.run_writes ordered fault?
  refine ⟨called, code, asked, selected, fun notSuper notSupexec register other => ?_,
    fun addr steady changed => ?_, ?_⟩
  · refine registers_of_serve served asked (fun same => ?_) (fun same => ?_) other
    · exact notSuper (eq_of_signature? asked selected (by rw [same]; rfl))
    · exact notSupexec (eq_of_signature? asked selected (by rw [same]; rfl))
  · obtain ⟨result, u, ran, rfl⟩ | ⟨status, u, ran, rfl⟩ := ended
    · have hit : addr.toNat ∈ called.footprint s result.register := by
        by_contra outside
        exact changed ((kept.of_ok ran).byteAt?_eq ordered steady outside)
      refine ⟨⟨result, u, ran⟩, ?_, fun notSetexc notSupexec => ?_⟩
      · rw [answer, Registers.get_set_answer]
        exact footprint_subset asked selected hit
      · refine Routine.footprint_subset_callerWritable (fun same => ?_) (fun same => ?_) hit
        · exact notSetexc (eq_of_signature? asked selected (by rw [same]; rfl))
        · exact notSupexec (eq_of_signature? asked selected (by rw [same]; rfl))
    · exact absurd ((kept.of_status ran).byteAt?_eq ordered steady (Set.notMem_empty _)) changed
  · obtain ⟨called', value, asked', rfl⟩ := exists_answer_of_serve served
    obtain rfl : called = called' := Except.ok.inj (asked.symm.trans asked')
    exact kept.changedIn_after.layout

/-- A program whose stack holds a call that reads two bytes from the console to address 16. -/
def readingTwo : System where
  memory := ⟨[.ofBuffer "ram" 0 #[0, 0x3f, 0, 0, 0, 0, 0, 2, 0, 0, 0, 16, 0, 0, 0, 0, 0, 0, 0, 0]
    .readWrite]⟩
  kernel := { drive := { root := [] } }
  console := .ofInput [0x68, 0x69, 0x0a]

theorem serve_footprint_readingTwo :
    readingTwo.memory.Ordered ∧ (serve gemdosVector readingTwo).1 = .ok .proceed ∧
      (serve gemdosVector readingTwo).2.memory.byteAt? 17 = some 0x69 ∧
      ∀ addr, (serve gemdosVector readingTwo).2.memory.byteAt? addr ≠
        readingTwo.memory.byteAt? addr → addr.toNat ∈ Set.Ico 16 18 := by
  have ordered : readingTwo.memory.Ordered := ⟨List.pairwise_singleton _ _, by decide⟩
  have proceeds : (serve gemdosVector readingTwo).1 = .ok .proceed := by decide
  refine ⟨ordered, proceeds, by decide, fun addr changed => ?_⟩
  have served : serve gemdosVector readingTwo = (.ok .proceed, (serve gemdosVector readingTwo).2) :=
    Prod.ext proceeds rfl
  obtain ⟨called, code, _, selected, _, bytes, _⟩ := serve_footprint ordered served
  have code_eq : readingTwo.arguments.selector = .ok 0x3f := by decide
  obtain rfl : 0x3f = code := Except.ok.inj (code_eq.symm.trans selected)
  have steady : readingTwo.memory.SteadyAt addr := by
    intro a ha _
    obtain rfl := List.mem_singleton.mp ha
    trivial
  have hit := (bytes addr steady changed).2.1.1
  have buffer : readingTwo.arguments.long 8 = .ok 16 := by decide
  have count : (serve gemdosVector readingTwo).2.registers.get .answer = 2 := by decide
  rw [buffer, count] at hit
  exact hit

end Trap

end AtariTos

import AtariTos.Proofs.CallMemory
import AtariTos.Proofs.LastingAreas

namespace AtariTos

namespace Service

variable {α β : Type} {s t : System} {m : Service α} {f : α → Service β} {fault? : Option HostFault}

/-- A service that fails leaves the system as it was. Only when the host breaks a transfer off, it
leaves what that has done. -/
def FailsClean (fault? : Option HostFault) (m : Service α) (s : System) : Prop :=
  ∀ failure t, m.run s = .error failure t → t = s ∨
    failure = .status .internalError ∧ ∃ fault ∈ fault?, s.Transferred fault.done t

def Succeeds (m : Service α) (s : System) : Prop :=
  ∃ value t, m.run s = .ok value t

theorem Succeeds.bind {value : α} (ran : m.run s = .ok value t) (rest : Succeeds (f value) t) :
    Succeeds (m >>= f) s := by
  obtain ⟨result, u, ran'⟩ := rest
  exact ⟨result, u, (run_bind_of_ok ran).trans ran'⟩

namespace FailsClean

theorem of_touches (reads : Touches [] m) : FailsClean fault? m s := by
  intro failure t ran
  have same := reads.after_eq s
  rw [after_of_error ran] at same
  exact .inl same

theorem of_succeeds (h : Succeeds m s) : FailsClean fault? m s := by
  intro failure t ran
  obtain ⟨value, u, ran'⟩ := h
  cases ran'.symm.trans ran

theorem of_ok {value : α} (h : m.run s = .ok value t) : FailsClean fault? m s :=
  of_succeeds ⟨value, t, h⟩

theorem map {g : α → β} (h : FailsClean fault? m s) : FailsClean fault? (g <$> m) s := by
  intro failure t ran
  rw [run_map] at ran
  split at ran
  · cases ran
  next ran' =>
    cases ran
    exact h _ _ ran'

theorem skip {value : α} (ran : m.run s = .ok value s) (rest : FailsClean fault? (f value) s) :
    FailsClean fault? (m >>= f) s := by
  intro failure t ran'
  rw [run_bind_of_ok ran] at ran'
  exact rest failure t ran'

theorem reads (first : Touches [] m) (rest : ∀ value, m.run s = .ok value s →
    FailsClean fault? (f value) s) : FailsClean fault? (m >>= f) s := by
  intro failure t ran
  have same := first.after_eq s
  rcases error_of_bind ran with here | ⟨value, u, ran', there⟩
  · rw [after_of_error here] at same
    exact .inl same
  · rw [after_of_ok ran'] at same
    subst same
    exact rest value ran' failure t there

theorem bind (first : FailsClean fault? m s) (rest : ∀ value t, m.run s = .ok value t →
    Succeeds (f value) t) : FailsClean fault? (m >>= f) s := by
  intro failure t ran
  rcases error_of_bind ran with here | ⟨value, u, ran', there⟩
  · exact first failure t here
  · obtain ⟨result, v, done⟩ := rest value u ran'
    cases done.symm.trans there

theorem get {f : System → Service α} (rest : FailsClean fault? (f s) s) :
    FailsClean fault? (MonadState.get >>= f) s :=
  rest

theorem ite {c : Prop} [Decidable c] {m' : Service α} (yes : c → FailsClean fault? m s)
    (no : ¬c → FailsClean fault? m' s) : FailsClean fault? (if c then m else m') s := by
  split
  · exact yes ‹c›
  · exact no ‹¬c›

theorem orStop {outcome : Except Fault α} (rest : ∀ value, outcome = .ok value →
    FailsClean fault? (f value) s) : FailsClean fault? (Service.orStop outcome >>= f) s := by
  cases outcome with
  | ok value => exact rest value rfl
  | error fault => exact of_touches (.stop _)

theorem reject (status : Status) : FailsClean fault? (Service.reject status : Service α) s :=
  of_touches (.reject status)

theorem exchange {transfer : Except HostError α × Console}
    (part : ∀ cause, transfer.1 = .error cause → ∃ fault ∈ fault?,
      s.Transferred fault.done { s with console := transfer.2 }) :
    FailsClean fault? (Service.exchange transfer) s := by
  intro failure t ran
  rw [run_exchange] at ran
  split at ran
  · cases ran
  next cause broken =>
    cases ran
    exact .inr ⟨rfl, part cause broken⟩

theorem takeByte : FailsClean fault? (Service.exchange (s.console.takeByte fault?)) s := by
  refine exchange fun cause broken => ?_
  cases fault? with
  | none => cases broken
  | some fault =>
    unfold Console.takeByte at broken ⊢
    dsimp only at broken ⊢
    split at broken
    next before =>
      rw [if_pos before]
      exact ⟨fault, rfl, .consoleInput (Nat.zero_le _)⟩
    · cases broken

theorem takeLine (max : Nat) :
    FailsClean fault? (Service.exchange (s.console.takeLine max fault?)) s := by
  refine exchange fun cause broken => ?_
  cases fault? with
  | none => cases broken
  | some fault =>
    unfold Console.takeLine at broken ⊢
    dsimp only at broken ⊢
    split at broken
    · cases broken
    next reached =>
      rw [if_neg reached]
      exact ⟨fault, rfl, .consoleInput (Nat.le_refl _)⟩

theorem print (data : List UInt8) : FailsClean fault? (Service.print data fault?) s := by
  refine exchange fun cause broken => ?_
  cases fault? with
  | none => cases broken
  | some fault => exact ⟨fault, rfl, .consoleOutput (List.length_take_le _ _)⟩

end FailsClean

theorem run_requireWritable (addr : UInt32) (len : Nat) (s : System) :
    (requireWritable addr len).run s =
      if isWritable s addr len then .ok () s else .error (.status .rangeError) s := by
  unfold requireWritable
  rw [run_get_bind]
  split <;> rfl

theorem isWritable_of_run {addr : UInt32} {len : Nat} {value : Unit}
    (h : (requireWritable addr len).run s = .ok value t) : isWritable s addr len = true := by
  rw [run_requireWritable] at h
  split at h
  next writable => exact writable
  · cases h

theorem isWritable_of_same {addr : UInt32} {len : Nat} (memory : t.memory = s.memory)
    (registers : t.registers = s.registers) : isWritable t addr len = isWritable s addr len := by
  rw [isWritable, isWritable, memory, registers]

theorem exists_store_of_isWritable {addr : UInt32} {len : Nat} {data : List UInt8}
    (writable : isWritable s addr len = true) (short : data.length ≤ len) :
    ∃ memory, s.memory.store addr data s.registers.privilege = .ok memory := by
  rw [GuestMemory.store_cases]
  by_cases empty : data.isEmpty
  · exact ⟨_, if_pos empty⟩
  · have filled : data.length ≠ 0 := by rwa [List.isEmpty_iff, ← List.length_eq_zero_iff] at empty
    have asked : len ≠ 0 := by omega
    unfold isWritable at writable
    rw [decide_eq_false asked, Bool.false_or] at writable
    split at writable
    · cases writable
    next area found =>
      obtain ⟨covered, allowed⟩ := Bool.and_eq_true_iff.mp writable
      obtain ⟨inside, fits⟩ := Area.covers_iff.mp covered
      have covered' : area.covers addr data.length = true :=
        Area.covers_iff.mpr ⟨inside, by omega⟩
      have located : s.memory.locate addr data.length .write s.registers.privilege = .ok area := by
        simp [GuestMemory.locate, found, covered', Rights.permits, allowed]
      rw [if_neg empty, located]
      exact ⟨_, rfl⟩

theorem succeeds_storeBuffer_pure {addr : UInt32} {len : Nat} {data : List UInt8} {value : α}
    (writable : isWritable s addr len = true) (short : data.length ≤ len) :
    Succeeds (storeBuffer addr data >>= fun _ => pure value) s := by
  obtain ⟨memory, stored⟩ := exists_store_of_isWritable writable short
  have ran := run_storeBuffer addr data s
  rw [stored] at ran
  exact .bind ran ⟨value, _, rfl⟩

theorem eq_of_run_loadBuffer (ordered : s.memory.Ordered) (silent : s.memory.Each Area.IsSilent)
    {addr : UInt32} {len : Nat} {data : List UInt8}
    (h : (loadBuffer addr len).run s = .ok data t) : t = s := by
  rw [run_loadBuffer] at h
  cases loaded : s.memory.load addr len s.registers.privilege with
  | error fault =>
    rw [loaded] at h
    cases h
  | ok result =>
    have same := ordered.load_of_isSilent silent loaded
    rw [loaded] at h
    cases h
    rw [same]

theorem failsClean_loadBuffer (addr : UInt32) (len : Nat) :
    FailsClean fault? (loadBuffer addr len) s := by
  intro failure t ran
  rw [run_loadBuffer] at ran
  split at ran <;> cases ran
  exact .inl rfl

theorem failsClean_storeBuffer (addr : UInt32) (data : List UInt8) :
    FailsClean fault? (storeBuffer addr data) s := by
  intro failure t ran
  rw [run_storeBuffer] at ran
  split at ran <;> cases ran
  exact .inl rfl

theorem FailsClean.loadBuffer (ordered : s.memory.Ordered) (silent : s.memory.Each Area.IsSilent)
    {addr : UInt32} {len : Nat} {f : List UInt8 → Service β}
    (rest : ∀ data, FailsClean fault? (f data) s) :
    FailsClean fault? (Service.loadBuffer addr len >>= f) s := by
  intro failure t ran
  rcases error_of_bind ran with here | ⟨data, u, ran', there⟩
  · exact failsClean_loadBuffer addr len failure t here
  · obtain rfl := eq_of_run_loadBuffer ordered silent ran'
    exact rest data failure t there

theorem failsClean_readCharacter : FailsClean fault? (readCharacter fault?) s :=
  .get (.bind .takeByte fun _ _ _ => ⟨_, _, rfl⟩)

theorem failsClean_writeCharacter : FailsClean fault? (writeCharacter fault?) s :=
  .reads (.argumentWord 2) fun _ _ => .bind (.print _) fun _ _ _ => ⟨0, _, rfl⟩

theorem failsClean_readString (ordered : s.memory.Ordered) (silent : s.memory.Each Area.IsSilent) :
    FailsClean fault? (readString fault?) s := by
  refine .reads (.argumentLong 2) fun addr _ => .loadBuffer ordered silent fun data => ?_
  refine .reads (.requireWritable _ _) fun _ checked => .get ?_
  refine .bind (.takeLine _) fun line t taken => ?_
  obtain ⟨answer, rfl⟩ := eq_of_exchange taken
  have writable := isWritable_of_run checked
  rw [← isWritable_of_same rfl rfl] at writable
  refine succeeds_storeBuffer_pure writable ?_
  have short := Console.length_of_takeLine answer
  exact Nat.succ_le_succ ((length_trimLine line).trans short)

theorem failsClean_printString : FailsClean fault? (printString fault?) s := by
  refine .reads (.argumentLong 2) fun addr _ => .reads (.stringAt addr _) fun found _ => ?_
  cases found with
  | none => exact .reject _
  | some text => exact .bind (.print text) fun _ _ _ => ⟨_, _, rfl⟩

theorem failsClean_exceptionVector (ordered : s.memory.Ordered)
    (silent : s.memory.Each Area.IsSilent) : FailsClean fault? exceptionVector s := by
  refine .reads (.argumentWord 2) fun number _ => .reads (.argumentLong 4) fun vector _ => .get ?_
  refine .orStop fun ⟨previous, memory⟩ read => ?_
  obtain rfl := ordered.read_of_isSilent silent read
  refine .skip rfl (.ite (fun _ => ?_) fun _ => .of_ok rfl)
  exact .orStop fun memory _ => .of_ok rfl

theorem failsClean_createDirectory : FailsClean fault? createDirectory s := by
  refine .reads (.argumentPath 2) fun path _ => .get ?_
  cases s.host.makeDirectory path with
  | error cause => exact .reject _
  | ok host => exact .of_ok rfl

theorem failsClean_setDirectory : FailsClean fault? setDirectory s := by
  refine .reads (.argumentLong 2) fun addr _ => .reads (.pathAt addr) fun guest _ => .get ?_
  cases s.kernel.drive.changeDirectory s.host guest with
  | error cause => exact .reject _
  | ok drive => exact .of_ok rfl

theorem failsClean_currentDirectory : FailsClean fault? currentDirectory s := by
  refine .reads (.argumentLong 2) fun buffer _ => .reads (.argumentWord 6) fun drive _ => ?_
  refine .ite (fun _ => .reject _) fun _ => .get (.ite (fun _ => .reject _) fun _ => ?_)
  exact .bind (failsClean_storeBuffer _ _) fun _ _ _ => ⟨0, _, rfl⟩

theorem failsClean_giveHandle (f : OpenFile) : FailsClean fault? (giveHandle f) s := by
  refine .get ?_
  cases s.kernel.handles.insert f with
  | none => exact .reject _
  | some given => exact .of_ok rfl

theorem failsClean_openFile : FailsClean fault? openFile s := by
  refine .reads (.argumentPath 2) fun path _ => .reads (.argumentWord 6) fun word _ => ?_
  cases openMode? word with
  | none => exact .reject _
  | some mode =>
    refine .reads .requireFreeHandle fun _ _ => .get ?_
    cases s.host.fileAt path with
    | error cause => exact .reject _
    | ok file => exact failsClean_giveHandle _

theorem failsClean_closeFile : FailsClean fault? closeFile s :=
  .reads (.argumentHandle 2) fun _ _ => .get (.ite (fun _ => .of_ok rfl) fun _ => .reject _)

theorem failsClean_fetch (handle : Int16) (count : Nat) :
    FailsClean fault? (fetch handle count fault?) s := by
  refine .get ?_
  cases given : s.kernel.handles.get? handle with
  | none => exact .reject _
  | some target =>
    cases target with
    | reserved | consoleOutput => exact .reject _
    | consoleInput => exact .takeLine count
    | file f =>
      intro failure t ran
      dsimp only at ran
      rcases transferred : s.host.readFrom f count fault? with ⟨transfer, moved⟩
      rw [transferred] at ran
      cases transfer with
      | ok data => cases ran
      | error cause =>
        cases ran
        rcases HostTree.eq_of_readFrom_error transferred with rfl | ⟨fault, struck, n, le, rfl⟩
        · exact .inl (System.replace_self given)
        · exact .inr ⟨rfl, fault, struck, .position given le⟩

/-- The buffer has been checked before anything is fetched, and takes whatever comes. -/
theorem failsClean_readFile : FailsClean fault? (readFile fault?) s := by
  refine .reads (.argumentHandle 2) fun handle _ => .reads (.argumentLong 4) fun count _ => ?_
  refine .reads (.argumentLong 8) fun buffer _ => .reads (.requireWritable _ _) fun _ checked => ?_
  refine .bind (failsClean_fetch handle _) fun data t fetched => ?_
  have touches : Touches [.console, .handles] (fetch handle count.toNat fault?) :=
    .fetch (by decide) (by decide) _ _
  have agree := touches s
  rw [after_of_ok fetched] at agree
  have writable : isWritable t buffer count.toNat = true := by
    rw [isWritable_of_same (agree .memory (by decide)) (agree .registers (by decide))]
    exact isWritable_of_run checked
  exact succeeds_storeBuffer_pure writable (length_fetch fetched)

theorem failsClean_send (handle : Int16) (data : List UInt8) :
    FailsClean fault? (send handle data fault?) s := by
  refine .get ?_
  cases given : s.kernel.handles.get? handle with
  | none => exact .reject _
  | some target =>
    cases target with
    | reserved | consoleInput => exact .reject _
    | consoleOutput => exact .print data
    | file f =>
      intro failure t ran
      dsimp only at ran
      rcases transferred : s.host.writeTo f data fault? with ⟨transfer, moved, host⟩
      rw [transferred] at ran
      cases transfer with
      | ok done => cases ran
      | error cause =>
        cases ran
        rcases HostTree.eq_of_writeTo_error transferred with ⟨rfl, rfl⟩ |
          ⟨fault, struck, part, le, written⟩
        · exact .inl (System.replace_self given)
        · exact .inr ⟨rfl, fault, struck, .content given le written⟩

theorem failsClean_writeFile (ordered : s.memory.Ordered) (silent : s.memory.Each Area.IsSilent) :
    FailsClean fault? (writeFile fault?) s := by
  refine .reads (.argumentHandle 2) fun handle _ => .reads (.argumentLong 4) fun count _ => ?_
  refine .reads (.argumentLong 8) fun buffer _ => .get (.ite (fun _ => .reject _) fun _ => ?_)
  refine .loadBuffer ordered silent fun data => ?_
  exact .bind (failsClean_send handle data) fun _ _ _ => ⟨count, _, rfl⟩

theorem failsClean_deleteFile : FailsClean fault? deleteFile s := by
  refine .reads (.argumentPath 2) fun path _ => .get ?_
  cases s.host.removeName path with
  | error cause => exact .reject _
  | ok host => exact .of_ok rfl

theorem failsClean_fileTime : FailsClean fault? (fileTime fault?) s := by
  refine .reads (.argumentLong 2) fun buffer _ => .reads (.argumentHandle 6) fun handle _ => ?_
  refine .reads (.argumentWord 8) fun word _ => .ite (fun _ => .reject _) fun _ => ?_
  refine .reads (.requireWritable _ _) fun _ _ => .reads (.timeOf handle) fun time _ => ?_
  exact .bind (failsClean_storeBuffer _ _) fun _ _ _ => ⟨0, _, rfl⟩

theorem failsClean_allocateBlock : FailsClean fault? allocateBlock s :=
  .reads (.argumentLong 2) fun _ _ => .get (.ite (fun _ => .of_ok rfl) fun _ => .of_ok rfl)

theorem failsClean_freeBlock : FailsClean fault? freeBlock s := by
  refine .reads (.argumentLong 2) fun base _ => .get ?_
  rw [Heap.tryFree_eq]
  cases s.kernel.heap.free base with
  | error cause => exact .skip rfl (.reject _)
  | ok freed => exact .of_ok rfl

theorem failsClean_shrinkBlock : FailsClean fault? shrinkBlock s := by
  refine .reads (.argumentLong 4) fun base _ => .reads (.argumentLong 8) fun len _ => .get ?_
  rw [Heap.tryShrink_eq]
  cases s.kernel.heap.shrink base len with
  | error cause => cases cause <;> exact .skip rfl (.reject _)
  | ok heap => exact .of_ok rfl

theorem failsClean_switchMode : FailsClean fault? switchMode s := by
  refine .reads (.argumentLong 2) fun stack _ => .get (.ite (fun _ => .of_ok rfl) fun _ => ?_)
  exact .ite (fun _ => .of_ok rfl) fun _ => .of_ok rfl

theorem failsClean_rawInputOutput : FailsClean fault? (rawInputOutput fault?) s := by
  refine .reads (.argumentWord 2) fun word _ => .ite (fun _ => ?_) fun _ => .get ?_
  · exact .bind (.print _) fun _ _ _ => ⟨0, _, rfl⟩
  · exact .ite (fun _ => failsClean_readCharacter) fun _ => .of_ok rfl

theorem failsClean_deviceRead : FailsClean fault? (deviceRead fault?) s :=
  .reads (.argumentWord 2) fun _ _ => .ite (fun _ => failsClean_readCharacter) fun _ => .of_ok rfl

theorem failsClean_deviceWrite : FailsClean fault? (deviceWrite fault?) s := by
  refine .reads (.argumentWord 2) fun device _ => .reads (.argumentWord 4) fun character _ => ?_
  refine .ite (fun _ => ?_) fun _ => .of_ok rfl
  exact .bind (.print _) fun _ _ _ => ⟨0, _, rfl⟩

end Service

namespace Routine

/-- The calls that may have changed something when they fail. -/
def leavesTraces : Routine → Bool
  | seekFile | createFile | callSupervisor => true
  | _ => false

open Service in
theorem failsClean_run {s : System} (ordered : s.memory.Ordered)
    (silent : s.memory.Each Area.IsSilent) {called : Routine} (fault? : Option HostFault)
    (clean : called.leavesTraces = false) : FailsClean fault? (called.run fault?) s := by
  by_cases reads : called.parts = []
  · exact .of_touches (reads ▸ called.touches_run fault?)
  cases called with
  | seekFile | createFile | callSupervisor => cases clean
  | readCharacter => exact .map failsClean_readCharacter
  | writeCharacter => exact .map failsClean_writeCharacter
  | rawInputOutput => exact .map failsClean_rawInputOutput
  | printString => exact .map failsClean_printString
  | readString => exact .map (failsClean_readString ordered silent)
  | createDirectory => exact .map failsClean_createDirectory
  | setDirectory => exact .map failsClean_setDirectory
  | currentDirectory => exact .map failsClean_currentDirectory
  | openFile => exact .map failsClean_openFile
  | closeFile => exact .map failsClean_closeFile
  | readFile => exact .map failsClean_readFile
  | writeFile => exact .map (failsClean_writeFile ordered silent)
  | deleteFile => exact .map failsClean_deleteFile
  | fileTime => exact .map failsClean_fileTime
  | setTransferAddress => exact .map (.reads (.argumentLong 2) fun _ _ => .of_ok rfl)
  | allocateBlock => exact .map failsClean_allocateBlock
  | freeBlock => exact .map failsClean_freeBlock
  | shrinkBlock => exact .map failsClean_shrinkBlock
  | switchMode => exact .map failsClean_switchMode
  | deviceRead => exact .map failsClean_deviceRead
  | deviceWrite => exact .map failsClean_deviceWrite
  | exceptionVector => exact .map (failsClean_exceptionVector ordered silent)
  | _ => exact absurd rfl reads

end Routine

namespace Trap

variable {s t : System} {vector : UInt8} {called : Routine} {status : Status} {cause : StopCause}
  {fault? : Option HostFault}

theorem serve_of_status (asked : routine s vector = .ok called)
    (failed : (called.run fault?).run s = .error (.status status) t) :
    serve vector s fault? = (.ok .proceed, answer t status.register) := by
  rw [serve, asked]
  dsimp only
  rw [complete, failed]

end Trap

namespace Session

variable {s : Session} {vector : UInt8}

theorem trap_of_map {called : Routine} {m : Service UInt32}
    (asked : Trap.routine s.system vector = .ok called) (same : called.run = .value <$> m) :
    s.trap vector =
      match m.run s.system with
      | .ok value t => (.ok .proceed, { s with system := Trap.answer t value })
      | .error (.status status) t =>
        (.ok .proceed, { s with system := Trap.answer t status.register })
      | .error (.stop cause) t => (.error ⟨s.system.registers.pc, cause⟩, { s with system := t }) := by
  rw [trap, Trap.serve, asked]
  dsimp only
  rw [Trap.complete, same, Service.run_map]
  cases m.run s.system with
  | ok value t => rfl
  | error failure t => cases failure <;> rfl

end Session

end AtariTos

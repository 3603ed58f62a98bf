import AtariTos.Proofs.HiddenMemory
import AtariTos.Proofs.MemoryWrites
import AtariTos.Proofs.TrapFootprint
import AtariTos.Session

namespace AtariTos

namespace System

/-- Two states that differ in nothing but bytes that no user has a right to. -/
structure AlikeBut (hidden : Set Nat) (s t : System) : Prop where
  registers : t.registers = s.registers
  memory : s.memory.AlikeBut hidden t.memory
  kernel : t.kernel = s.kernel
  console : t.console = s.console
  host : t.host = s.host

/-- Such states while the program runs as a user. -/
structure AlikeToUser (hidden : Set Nat) (s t : System) : Prop extends AlikeBut hidden s t where
  user : s.registers.privilege = .user

variable {hidden : Set Nat} {s t : System}

theorem AlikeBut.exists_memory (alike : s.AlikeBut hidden t) :
    ∃ memory, s.memory.AlikeBut hidden memory ∧ t = { s with memory } := by
  obtain ⟨registers, memory, kernel, console, host⟩ := alike
  refine ⟨t.memory, memory, ?_⟩
  obtain ⟨_, _, _, _, _⟩ := t
  subst registers kernel console host
  rfl

theorem AlikeToUser.fetch_eq (alike : s.AlikeToUser hidden t) (offset : UInt32) (width : Width) :
    t.arguments.fetch offset width = s.arguments.fetch offset width := by
  obtain ⟨memory, same, rfl⟩ := alike.exists_memory
  have mode : s.arguments.mode = .user := alike.user
  change memory.peek (s.arguments.sp + offset) width s.arguments.mode =
    s.memory.peek (s.arguments.sp + offset) width s.arguments.mode
  rw [mode, same.peek_user]

end System

namespace Service

variable {α β : Type} {hidden : Set Nat} {s t : System} {m : Service α} {f : α → Service β}
  {R R' : System → System → Prop}

/-- Two runs end the same way, in states that belong together. -/
inductive Paired (R : System → System → Prop) :
    EStateM.Result Failure System α → EStateM.Result Failure System α → Prop
  | ok (value : α) {s t : System} (h : R s t) : Paired R (.ok value s) (.ok value t)
  | error (failure : Failure) {s t : System} (h : R s t) :
      Paired R (.error failure s) (.error failure t)

namespace Paired

theorem bind {m' : Service α} {f' : α → Service β} (weaker : ∀ u v, R u v → R' u v)
    (first : Paired R (m.run s) (m'.run t))
    (rest : ∀ value u v, R u v → Paired R' ((f value).run u) ((f' value).run v)) :
    Paired R' ((m >>= f).run s) ((m' >>= f').run t) := by
  cases ran : m.run s with
  | ok value u =>
    cases ran' : m'.run t with
    | ok value' v =>
      rw [ran, ran'] at first
      rw [run_bind_of_ok ran, run_bind_of_ok ran']
      cases first with
      | ok _ h => exact rest value u v h
    | error failure v =>
      rw [ran, ran'] at first
      cases first
  | error failure u =>
    cases ran' : m'.run t with
    | ok value' v =>
      rw [ran, ran'] at first
      cases first
    | error failure' v =>
      rw [ran, ran'] at first
      rw [run_bind_of_error ran, run_bind_of_error ran']
      cases first with
      | error _ h => exact .error failure (weaker u v h)

theorem mono {result result' : EStateM.Result Failure System α} (h : Paired R result result')
    (weaker : ∀ u v, R u v → R' u v) : Paired R' result result' := by
  cases h with
  | ok value h => exact .ok value (weaker _ _ h)
  | error failure h => exact .error failure (weaker _ _ h)

theorem map (g : α → β) (h : Paired R (m.run s) (m.run t)) :
    Paired R ((g <$> m).run s) ((g <$> m).run t) := by
  change Paired R (EStateM.map g m s) (EStateM.map g m t)
  rw [EStateM.map, EStateM.map]
  change Paired R (m s) (m t) at h
  generalize m s = result at h
  generalize m t = result' at h
  cases h with
  | ok value h => exact .ok (g value) h
  | error failure h => exact .error failure h

theorem get {f f' : System → Service α} (rest : Paired R ((f s).run s) ((f' t).run t)) :
    Paired R ((MonadState.get >>= f).run s) ((MonadState.get >>= f').run t) :=
  rest

theorem modify {change change' : System → System} {f f' : Unit → Service α}
    (rest : Paired R ((f ()).run (change s)) ((f' ()).run (change' t))) :
    Paired R (((modify change : Service Unit) >>= f).run s)
      (((modify change' : Service Unit) >>= f').run t) :=
  rest

theorem orStop {S : α → α → Prop} {outcome outcome' : Except Fault α} {f f' : α → Service β}
    (matched : Matched S outcome outcome') (here : R s t)
    (rest : ∀ value value', S value value' → Paired R ((f value).run s) ((f' value').run t)) :
    Paired R ((Service.orStop outcome >>= f).run s) ((Service.orStop outcome' >>= f').run t) := by
  cases matched with
  | error fault => exact .error _ here
  | ok h => exact rest _ _ h

end Paired

/-- What no user has a right to makes no difference to a service. -/
def Blind (hidden : Set Nat) (m : Service α) : Prop :=
  ∀ s t, s.AlikeToUser hidden t → Paired (System.AlikeToUser hidden) (m.run s) (m.run t)

namespace Blind

theorem pure (value : α) : Blind hidden (Pure.pure value : Service α) :=
  fun _ _ h => .ok value h

theorem reject (status : Status) : Blind hidden (Service.reject status : Service α) :=
  fun _ _ h => .error _ h

theorem stop (cause : StopCause) : Blind hidden (Service.stop cause : Service α) :=
  fun _ _ h => .error _ h

theorem bind (first : Blind hidden m) (rest : ∀ value, Blind hidden (f value)) :
    Blind hidden (m >>= f) :=
  fun s t h => .bind (fun _ _ => id) (first s t h) fun value u v => rest value u v

theorem map (g : α → β) (h : Blind hidden m) : Blind hidden (g <$> m) :=
  fun s t alike => .map g (h s t alike)

theorem ite {c : Prop} [Decidable c] {m' : Service α} (yes : Blind hidden m)
    (no : Blind hidden m') : Blind hidden (if c then m else m') := by
  split
  · exact yes
  · exact no

theorem get {f : System → Service α} (ignores : ∀ s memory, f { s with memory } = f s)
    (rest : ∀ s, Blind hidden (f s)) : Blind hidden (MonadState.get >>= f) := by
  intro s t alike
  obtain ⟨memory, _, rfl⟩ := alike.exists_memory
  have same := rest s s { s with memory } alike
  have opened : (MonadState.get >>= f).run { s with memory } = (f s).run { s with memory } := by
    rw [run_get_bind, ignores]
  rw [run_get_bind, opened]
  exact same

theorem setConsole (console : Console) : Blind hidden (Service.setConsole console) :=
  fun _ _ h => .ok () ⟨⟨h.registers, h.memory, h.kernel, rfl, h.host⟩, h.user⟩

theorem setHost (host : HostTree) : Blind hidden (Service.setHost host) :=
  fun _ _ h => .ok () ⟨⟨h.registers, h.memory, h.kernel, h.console, rfl⟩, h.user⟩

theorem setKernel (change : Kernel → Kernel) : Blind hidden (Service.setKernel change) :=
  fun _ _ h => .ok () ⟨⟨h.registers, h.memory, congrArg change h.kernel, h.console, h.host⟩, h.user⟩

theorem orStop (outcome : Except Fault α) : Blind hidden (Service.orStop outcome) := by
  cases outcome with
  | ok value => exact pure value
  | error fault => exact stop _

theorem argumentLong (offset : UInt32) : Blind hidden (Service.argumentLong offset) := by
  intro s t alike
  change Paired _ ((Service.orStop (s.arguments.long offset)).run s)
    ((Service.orStop (t.arguments.long offset)).run t)
  rw [Arguments.long, Arguments.long, alike.fetch_eq]
  exact orStop _ s t alike

theorem argumentWord (offset : UInt32) : Blind hidden (Service.argumentWord offset) := by
  intro s t alike
  change Paired _ ((Service.orStop (s.arguments.word offset)).run s)
    ((Service.orStop (t.arguments.word offset)).run t)
  rw [Arguments.word, Arguments.word, alike.fetch_eq]
  exact orStop _ s t alike

theorem argumentHandle (offset : UInt32) : Blind hidden (Service.argumentHandle offset) := by
  intro s t alike
  change Paired _ ((Service.orStop (s.arguments.signedWord offset)).run s)
    ((Service.orStop (t.arguments.signedWord offset)).run t)
  rw [Arguments.signedWord, Arguments.signedWord, Arguments.word, Arguments.word, alike.fetch_eq]
  exact orStop _ s t alike

theorem stringAt (addr : UInt32) (limit : Nat) : Blind hidden (Service.stringAt addr limit) := by
  intro s t alike
  obtain ⟨memory, same, rfl⟩ := alike.exists_memory
  change Paired _
    ((Service.orRangeError (s.memory.peekString addr limit s.registers.privilege)).run s)
    ((Service.orRangeError (memory.peekString addr limit s.registers.privilege)).run _)
  rw [alike.user, same.peekString_user]
  cases s.memory.peekString addr limit .user with
  | ok found => exact .ok found alike
  | error fault => exact .error _ alike

theorem pathAt (addr : UInt32) : Blind hidden (Service.pathAt addr) := by
  refine bind (stringAt addr _) fun found => ?_
  cases found with
  | some path => exact pure path
  | none => exact reject _

theorem argumentPath (offset : UInt32) : Blind hidden (Service.argumentPath offset) := by
  refine bind (argumentLong offset) fun addr => bind (pathAt addr) fun guest => ?_
  refine get (fun _ _ => rfl) fun s => ?_
  cases s.kernel.drive.translate s.host guest with
  | ok path => exact pure path
  | error cause => exact reject _

theorem requireWritable (addr : UInt32) (len : Nat) :
    Blind hidden (Service.requireWritable addr len) := by
  intro s t alike
  obtain ⟨memory, same, rfl⟩ := alike.exists_memory
  have writable : isWritable { s with memory } addr len = isWritable s addr len := by
    have found := same.find? addr
    unfold isWritable
    dsimp only
    generalize s.memory.find? addr = here at found
    generalize memory.find? addr = there at found
    cases found with
    | none => rfl
    | some h => simp only [h.covers_eq, h.rights_eq]
  unfold Service.requireWritable
  rw [run_get_bind, run_get_bind, writable]
  split
  · exact .ok () alike
  · exact .error _ alike

theorem loadBuffer (addr : UInt32) (len : Nat) : Blind hidden (Service.loadBuffer addr len) := by
  intro s t alike
  obtain ⟨memory, same, rfl⟩ := alike.exists_memory
  have loaded := same.load_user addr len
  rw [run_loadBuffer, run_loadBuffer, alike.user]
  dsimp only
  generalize s.memory.load addr len .user = here at loaded
  generalize memory.load addr len .user = there at loaded
  cases loaded with
  | error fault => exact .error _ alike
  | @ok got got' h =>
    obtain ⟨data, next⟩ := got
    obtain ⟨_, next'⟩ := got'
    obtain ⟨rfl, h⟩ := h
    exact .ok _ ⟨⟨rfl, h, rfl, rfl, rfl⟩, alike.user⟩

theorem storeBuffer (addr : UInt32) (data : List UInt8) :
    Blind hidden (Service.storeBuffer addr data) := by
  intro s t alike
  obtain ⟨memory, same, rfl⟩ := alike.exists_memory
  have stored := same.store addr data s.registers.privilege
  rw [run_storeBuffer, run_storeBuffer]
  dsimp only
  generalize s.memory.store addr data s.registers.privilege = here at stored
  generalize memory.store addr data s.registers.privilege = there at stored
  cases stored with
  | error fault => exact .error _ alike
  | ok h => exact .ok () ⟨⟨rfl, h, rfl, rfl, rfl⟩, alike.user⟩

variable {fault? : Option HostFault}

theorem exchange (transfer : Except HostError α × Console) :
    Blind hidden (Service.exchange transfer) := by
  refine bind (setConsole _) fun _ => ?_
  cases transfer.1 with
  | ok value => exact pure value
  | error cause => exact reject _

theorem readCharacter : Blind hidden (Service.readCharacter fault?) :=
  get (fun _ _ => rfl) fun _ => bind (exchange _) fun _ => pure _

theorem print (data : List UInt8) : Blind hidden (Service.print data fault?) :=
  get (fun _ _ => rfl) fun _ => exchange _

theorem inputStatus : Blind hidden Service.inputStatus :=
  get (fun _ _ => rfl) fun _ => pure _

theorem writeCharacter : Blind hidden (Service.writeCharacter fault?) :=
  bind (argumentWord 2) fun _ => bind (print _) fun _ => pure _

theorem rawInputOutput : Blind hidden (Service.rawInputOutput fault?) := by
  refine bind (argumentWord 2) fun word => ite (bind (print _) fun _ => pure _) ?_
  exact get (fun _ _ => rfl) fun s => ite readCharacter (pure _)

theorem printString : Blind hidden (Service.printString fault?) := by
  refine bind (argumentLong 2) fun addr => bind (stringAt addr _) fun found => ?_
  cases found with
  | none => exact reject _
  | some text => exact bind (print text) fun _ => pure _

theorem readString : Blind hidden (Service.readString fault?) := by
  refine bind (argumentLong 2) fun addr => bind (loadBuffer addr 1) fun capacity => ?_
  refine bind (requireWritable _ _) fun _ => get (fun _ _ => rfl) fun s => ?_
  exact bind (exchange _) fun _ => bind (storeBuffer _ _) fun _ => pure _

theorem deviceInputStatus : Blind hidden Service.deviceInputStatus :=
  bind (argumentWord 2) fun _ => ite inputStatus (pure _)

theorem deviceRead : Blind hidden (Service.deviceRead fault?) :=
  bind (argumentWord 2) fun _ => ite readCharacter (pure _)

theorem deviceWrite : Blind hidden (Service.deviceWrite fault?) := by
  refine bind (argumentWord 2) fun device => bind (argumentWord 4) fun character => ?_
  exact ite (bind (print _) fun _ => pure _) (pure _)

theorem deviceOutputStatus : Blind hidden Service.deviceOutputStatus :=
  bind (argumentWord 2) fun _ => pure _

theorem createDirectory : Blind hidden Service.createDirectory := by
  refine bind (argumentPath 2) fun path => get (fun _ _ => rfl) fun s => ?_
  cases s.host.makeDirectory path with
  | error cause => exact reject _
  | ok host => exact bind (setHost host) fun _ => pure _

theorem setDirectory : Blind hidden Service.setDirectory := by
  refine bind (argumentLong 2) fun addr => bind (pathAt addr) fun guest => ?_
  refine get (fun _ _ => rfl) fun s => ?_
  cases s.kernel.drive.changeDirectory s.host guest with
  | error cause => exact reject _
  | ok drive => exact bind (setKernel _) fun _ => pure _

theorem currentDirectory : Blind hidden Service.currentDirectory := by
  refine bind (argumentLong 2) fun buffer => bind (argumentWord 6) fun drive => ?_
  refine ite (reject _) (get (fun _ _ => rfl) fun s => ite (reject _) ?_)
  exact bind (storeBuffer _ _) fun _ => pure _

theorem giveHandle (f : OpenFile) : Blind hidden (Service.giveHandle f) := by
  refine get (fun _ _ => rfl) fun s => ?_
  cases s.kernel.handles.insert f with
  | none => exact reject _
  | some given => exact bind (setKernel _) fun _ => pure _

theorem requireFreeHandle : Blind hidden Service.requireFreeHandle :=
  get (fun _ _ => rfl) fun _ => ite (reject _) (pure _)

theorem createFile : Blind hidden Service.createFile := by
  refine bind (argumentPath 2) fun path => bind requireFreeHandle fun _ => ?_
  refine get (fun _ _ => rfl) fun s => ?_
  rcases s.host.makeDirectories path.dropLast with ⟨made, host⟩
  refine bind (setHost host) fun _ => ite ?_ (reject _)
  cases host.createFile path with
  | error cause => exact reject _
  | ok made => exact bind (setHost _) fun _ => giveHandle _

theorem openFile : Blind hidden Service.openFile := by
  refine bind (argumentPath 2) fun path => bind (argumentWord 6) fun word => ?_
  cases openMode? word with
  | none => exact reject _
  | some mode =>
    refine bind requireFreeHandle fun _ => get (fun _ _ => rfl) fun s => ?_
    cases s.host.fileAt path with
    | error cause => exact reject _
    | ok file => exact giveHandle _

theorem closeFile : Blind hidden Service.closeFile := by
  refine bind (argumentHandle 2) fun handle => get (fun _ _ => rfl) fun s => ?_
  exact ite (bind (setKernel _) fun _ => pure _) (reject _)

theorem fetch (handle : Int16) (count : Nat) :
    Blind hidden (Service.fetch handle count fault?) := by
  refine get (fun _ _ => rfl) fun s => ?_
  cases s.kernel.handles.get? handle with
  | none => exact reject _
  | some target =>
    cases target with
    | reserved | consoleOutput => exact reject _
    | consoleInput => exact exchange _
    | file f =>
      dsimp only
      obtain ⟨transfer, moved⟩ := s.host.readFrom f count fault?
      refine bind (setKernel _) fun _ => ?_
      cases transfer with
      | ok data => exact pure data
      | error cause => exact reject _

theorem readFile : Blind hidden (Service.readFile fault?) := by
  refine bind (argumentHandle 2) fun handle => bind (argumentLong 4) fun count => ?_
  refine bind (argumentLong 8) fun buffer => bind (requireWritable _ _) fun _ => ?_
  exact bind (fetch handle _) fun data => bind (storeBuffer _ _) fun _ => pure _

theorem send (handle : Int16) (data : List UInt8) :
    Blind hidden (Service.send handle data fault?) := by
  refine get (fun _ _ => rfl) fun s => ?_
  cases s.kernel.handles.get? handle with
  | none => exact reject _
  | some target =>
    cases target with
    | reserved | consoleInput => exact reject _
    | consoleOutput => exact print data
    | file f =>
      dsimp only
      obtain ⟨transfer, moved, host⟩ := s.host.writeTo f data fault?
      refine bind (setHost host) fun _ => bind (setKernel _) fun _ => ?_
      cases transfer with
      | ok done => exact pure done
      | error cause => exact reject _

theorem writeFile : Blind hidden (Service.writeFile fault?) := by
  refine bind (argumentHandle 2) fun handle => bind (argumentLong 4) fun count => ?_
  refine bind (argumentLong 8) fun buffer => get (fun _ _ => rfl) fun s => ite (reject _) ?_
  exact bind (loadBuffer _ _) fun data => bind (send handle data) fun _ => pure _

theorem deleteFile : Blind hidden Service.deleteFile := by
  refine bind (argumentPath 2) fun path => get (fun _ _ => rfl) fun s => ?_
  cases s.host.removeName path with
  | error cause => exact reject _
  | ok host => exact bind (setHost host) fun _ => pure _

theorem seekFile : Blind hidden Service.seekFile := by
  refine bind (argumentLong 2) fun offset => bind (argumentHandle 6) fun handle => ?_
  refine bind (argumentWord 8) fun word => ?_
  cases seekOrigin? word offset.toInt32 with
  | none => exact reject _
  | some origin =>
    refine get (fun _ _ => rfl) fun s => ?_
    cases s.kernel.handles.get? handle with
    | none => exact reject _
    | some target =>
      cases target with
      | reserved | consoleInput | consoleOutput => exact reject _
      | file f =>
        dsimp only
        cases s.host.seek f origin offset.toInt32.toInt with
        | error cause => exact reject _
        | ok moved => exact bind (setKernel _) fun _ => ite (pure _) (reject _)

theorem fileAttributes : Blind hidden Service.fileAttributes := by
  refine bind (argumentPath 2) fun path => bind (argumentWord 6) fun word => ?_
  refine ite (reject _) (get (fun _ _ => rfl) fun s => ?_)
  dsimp only
  cases HostTree.status (s.host.locate path true) with
  | error cause => exact reject _
  | ok found => exact pure _

theorem timeOf (handle : Int16) : Blind hidden (Service.timeOf handle fault?) := by
  refine get (fun _ _ => rfl) fun s => ?_
  cases s.kernel.handles.get? handle with
  | none => exact reject _
  | some target =>
    cases target with
    | reserved => exact reject _
    | consoleInput | consoleOutput => exact pure _
    | file f =>
      cases fault? with
      | none => exact pure _
      | some fault => exact reject _

theorem fileTime : Blind hidden (Service.fileTime fault?) := by
  refine bind (argumentLong 2) fun buffer => bind (argumentHandle 6) fun handle => ?_
  refine bind (argumentWord 8) fun word => ite (reject _) ?_
  refine bind (requireWritable _ _) fun _ => bind (timeOf handle) fun time => ?_
  exact bind (storeBuffer _ _) fun _ => pure _

theorem searchFirst : Blind hidden Service.searchFirst :=
  bind (argumentPath 2) fun _ => reject _

theorem allocateBlock : Blind hidden Service.allocateBlock := by
  refine bind (argumentLong 2) fun len => get (fun _ _ => rfl) fun s => ite (pure _) ?_
  exact bind (setKernel _) fun _ => pure _

theorem freeBlock : Blind hidden Service.freeBlock := by
  refine bind (argumentLong 2) fun base => get (fun _ _ => rfl) fun s => ?_
  rcases s.kernel.heap.tryFree base with ⟨freed, heap⟩
  refine bind (setKernel _) fun _ => ?_
  cases freed with
  | error cause => exact reject _
  | ok b => exact pure _

theorem shrinkBlock : Blind hidden Service.shrinkBlock := by
  refine bind (argumentLong 4) fun base => bind (argumentLong 8) fun len => ?_
  refine get (fun _ _ => rfl) fun s => ?_
  rcases s.kernel.heap.tryShrink base len with ⟨shrunk, heap⟩
  refine bind (setKernel _) fun _ => ?_
  cases shrunk with
  | error cause => cases cause <;> exact reject _
  | ok done => exact pure _

theorem setTransferAddress : Blind hidden Service.setTransferAddress :=
  bind (argumentLong 2) fun _ => bind (setKernel _) fun _ => pure _

theorem exitCode : Blind hidden Service.exitCode :=
  bind (argumentHandle 2) fun _ => pure _

theorem keyTables : Blind hidden Service.keyTables := by
  refine bind (argumentLong 2) fun unshifted => bind (argumentLong 6) fun shifted => ?_
  exact bind (argumentLong 10) fun capitals => ite (pure _) (stop _)

end Blind

theorem paired_switchMode (alike : s.AlikeToUser hidden t) :
    Paired (System.AlikeBut hidden) (switchMode.run s) (switchMode.run t) := by
  refine .bind (fun _ _ h => h.toAlikeBut) (Blind.argumentLong 2 s t alike) fun stack u v h => ?_
  obtain ⟨memory, same, rfl⟩ := h.exists_memory
  refine .get ?_
  dsimp only
  split
  · exact .ok _ ⟨rfl, same, rfl, rfl, rfl⟩
  · split
    · exact .ok _ ⟨rfl, same, rfl, rfl, rfl⟩
    · exact .ok _ ⟨rfl, same, rfl, rfl, rfl⟩

theorem paired_callSupervisor (alike : s.AlikeToUser hidden t) :
    Paired (System.AlikeBut hidden) (callSupervisor.run s) (callSupervisor.run t) := by
  refine .bind (fun _ _ h => h.toAlikeBut) (Blind.argumentLong 2 s t alike) fun routine u v h => ?_
  obtain ⟨memory, same, rfl⟩ := h.exists_memory
  refine .get (.modify (.get (.get (.orStop (same.store _ _ _) ⟨rfl, same, rfl, rfl, rfl⟩ ?_))))
  intro next next' stored
  refine .modify (.orStop (stored.store _ _ _) ⟨rfl, stored, rfl, rfl, rfl⟩ ?_)
  intro last last' stored'
  refine .modify (.modify (.modify ?_))
  exact .ok _ ⟨rfl, stored', rfl, rfl, rfl⟩

end Service

namespace Routine

open Service in
theorem blind_run (hidden : Set Nat) {called : Routine} (other : called ≠ .exceptionVector)
    (stays : .registers ∉ called.parts) (fault? : Option HostFault) :
    Blind hidden (called.run fault?) := by
  cases called with
  | exceptionVector => exact absurd rfl other
  | switchMode | callSupervisor => exact absurd (by decide) stays
  | endSuccessfully | outputStatus => exact .pure _
  | endWithCode => exact .map _ .exitCode
  | readCharacter => exact .map _ .readCharacter
  | writeCharacter => exact .map _ .writeCharacter
  | rawInputOutput => exact .map _ .rawInputOutput
  | printString => exact .map _ .printString
  | readString => exact .map _ .readString
  | inputStatus => exact .map _ .inputStatus
  | currentDrive | version | screenResolution | resetKeyTables => exact .map _ (.pure _)
  | createDirectory => exact .map _ .createDirectory
  | setDirectory => exact .map _ .setDirectory
  | currentDirectory => exact .map _ .currentDirectory
  | createFile => exact .map _ .createFile
  | openFile => exact .map _ .openFile
  | closeFile => exact .map _ .closeFile
  | readFile => exact .map _ .readFile
  | writeFile => exact .map _ .writeFile
  | deleteFile => exact .map _ .deleteFile
  | seekFile => exact .map _ .seekFile
  | fileAttributes => exact .map _ .fileAttributes
  | fileTime => exact .map _ .fileTime
  | setTransferAddress => exact .map _ .setTransferAddress
  | transferAddress | date | time => exact .map _ (.get (fun _ _ => rfl) fun _ => .pure _)
  | searchFirst => exact .map _ .searchFirst
  | searchNext | notAvailable => exact .map _ (.reject _)
  | allocateBlock => exact .map _ .allocateBlock
  | freeBlock => exact .map _ .freeBlock
  | shrinkBlock => exact .map _ .shrinkBlock
  | deviceInputStatus => exact .map _ .deviceInputStatus
  | deviceRead => exact .map _ .deviceRead
  | deviceWrite => exact .map _ .deviceWrite
  | deviceOutputStatus => exact .map _ .deviceOutputStatus
  | keyTables => exact .map _ .keyTables

open Service in
theorem paired_run {hidden : Set Nat} {s t : System} (alike : s.AlikeToUser hidden t)
    {called : Routine} (other : called ≠ .exceptionVector) (fault? : Option HostFault) :
    Paired (System.AlikeBut hidden) ((called.run fault?).run s) ((called.run fault?).run t) := by
  by_cases stays : .registers ∉ called.parts
  · exact (blind_run hidden other stays fault? s t alike).mono fun _ _ h => h.toAlikeBut
  cases called with
  | switchMode => exact .map _ (paired_switchMode alike)
  | callSupervisor => exact .map _ (paired_callSupervisor alike)
  | _ => exact absurd (by decide) stays

end Routine

namespace Trap

variable {hidden : Set Nat} {s t : System} {called : Routine} {vector : UInt8}

theorem routine_eq (alike : s.AlikeToUser hidden t) (vector : UInt8) :
    routine t vector = routine s vector := by
  have selected : t.arguments.selector = s.arguments.selector := by
    rw [Arguments.selector, Arguments.selector, Arguments.word, Arguments.word, alike.fetch_eq]
  unfold routine
  change (calls vector >>= fun table => t.arguments.selector.mapError .fault >>= table.handler) =
    (calls vector >>= fun table => s.arguments.selector.mapError .fault >>= table.handler)
  rw [selected]

theorem alikeBut_answer (alike : s.AlikeBut hidden t) (value : UInt32) :
    (answer s value).AlikeBut hidden (answer t value) :=
  ⟨congrArg (·.set .answer value) alike.registers, alike.memory, alike.kernel, alike.console,
    alike.host⟩

theorem serve_alike (alike : s.AlikeToUser hidden t)
    (other : routine s vector ≠ .ok .exceptionVector) (fault? : Option HostFault) :
    (serve vector t fault?).1 = (serve vector s fault?).1 ∧
      (serve vector s fault?).2.AlikeBut hidden (serve vector t fault?).2 := by
  unfold serve
  rw [routine_eq alike]
  cases asked : routine s vector with
  | error cause => exact ⟨rfl, alike.toAlikeBut⟩
  | ok called =>
    have paired := Routine.paired_run alike (fun same => other (same ▸ asked)) fault?
    dsimp only
    unfold complete
    generalize (called.run fault?).run s = result at paired
    generalize (called.run fault?).run t = result' at paired
    cases paired with
    | ok value h => cases value <;> exact ⟨rfl, alikeBut_answer h _⟩
    | error failure h =>
      cases failure with
      | status status => exact ⟨rfl, alikeBut_answer h _⟩
      | stop cause => exact ⟨rfl, h⟩

end Trap

namespace Session

/-- Two sessions that differ in nothing but bytes that no user has a right to. -/
structure AlikeBut (hidden : Set Nat) (s t : Session) : Prop where
  ramTop : t.ramTop = s.ramTop
  program : t.program = s.program
  system : s.system.AlikeBut hidden t.system

variable {hidden : Set Nat} {s t : Session} {vector : UInt8}

/-- What a user has no right to does not show. Whatever call a user asks for, but for the one that
exchanges vectors, two sessions that differ only in bytes that he may neither read nor write go on,
end or stop in the same way, and then they differ in no other bytes than before: the registers, the
kernel, the console and the host's files are the same, and so are all areas that he has a right
to. -/
theorem trap_alike (alike : s.AlikeBut hidden t) (user : s.system.registers.privilege = .user)
    (other : ¬(vector = Trap.biosVector ∧ s.system.arguments.selector = .ok 0x05))
    (fault? : Option HostFault) :
    (t.trap vector fault?).1 = (s.trap vector fault?).1 ∧
      (s.trap vector fault?).2.AlikeBut hidden (t.trap vector fault?).2 ∧
      (t.trap vector fault?).2.system.memory.shared =
        (s.trap vector fault?).2.system.memory.shared := by
  have notVector : Trap.routine s.system vector ≠ .ok .exceptionVector := by
    intro asked
    obtain ⟨_, code, _, selected, _⟩ := Trap.exists_code asked
    obtain ⟨same, rfl⟩ := Trap.eq_of_signature? asked selected rfl
    exact other ⟨same, selected⟩
  obtain ⟨outcome, after⟩ := Trap.serve_alike ⟨alike.system, user⟩ notVector fault?
  have pc : t.system.registers.pc = s.system.registers.pc := by rw [alike.system.registers]
  have outcome' : (t.trap vector fault?).1 = (s.trap vector fault?).1 := by
    change (Trap.serve vector t.system fault?).1.mapError (Stop.mk t.system.registers.pc) =
      (Trap.serve vector s.system fault?).1.mapError (Stop.mk s.system.registers.pc)
    rw [outcome, pc]
  exact ⟨outcome', ⟨alike.ramTop, alike.program, after⟩, after.memory.shared_eq⟩

/-- A program that asks for the stack pointer of the supervisor, whose stack it may not see. -/
def enteringSupervisor (secret : UInt8) : Session where
  system :=
    { memory := ⟨[.ofBuffer "ram" 0 #[0, 0x20, 0, 0, 0, 0] .readWrite,
        .ofBuffer "stack" 16 #[1, secret, 3] .supervisorReadWrite]⟩
      kernel := { drive := { root := [] } } }

theorem trap_alike_enteringSupervisor :
    ((enteringSupervisor 7).trap Trap.gemdosVector).1 = .ok .proceed ∧
      ((enteringSupervisor 2).trap Trap.gemdosVector).2.AlikeBut {17}
        ((enteringSupervisor 7).trap Trap.gemdosVector).2 := by
  have agree :
      Bytes.AgreeBut (Set.preimage ((16 : UInt32).toNat + ·) {17}) #[1, 2, 3] #[1, 7, 3] := by
    refine ⟨rfl, fun i shown => ?_⟩
    have elsewhere : i ≠ 1 := fun same => shown (by rw [same]; rfl)
    rcases i with _ | _ | i
    · rfl
    · exact absurd rfl elsewhere
    · rfl
  have alike : (enteringSupervisor 2).AlikeBut {17} (enteringSupervisor 7) :=
    ⟨rfl, rfl, rfl, .cons (.same _) (.cons (.apart rfl agree) .nil), rfl, rfl, rfl⟩
  have notVector : ¬(Trap.gemdosVector = Trap.biosVector ∧
      (enteringSupervisor 2).system.arguments.selector = .ok 0x05) := by decide
  obtain ⟨outcome, after, _⟩ := trap_alike alike (by decide) notVector none
  exact ⟨outcome.trans (by decide), after⟩

end Session

end AtariTos

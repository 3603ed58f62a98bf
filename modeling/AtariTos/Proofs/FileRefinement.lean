import AtariTos.Proofs.FileViews

namespace AtariTos

namespace Session

open Service (isWritable)

variable {s t : Session} {vector : UInt8} {called : Routine} {handle : Int16}
  {count buffer : UInt32} {f : OpenFile} {action : Action}

/-- Every handle stands for a file of the host. -/
def Filed (s : Session) : Prop :=
  s.system.host.Backs s.system.kernel.handles

theorem filed_create {host : HostTree} (good : host.IsTree)
    (clear : ∀ id, (host.file id).content.IsClear) {working : HostPath} {path : String}
    {ramTop : UInt32} (created : create host working path ramTop = .ok s) : s.Filed := by
  unfold create at created
  split at created
  · cases created
  · cases created
    exact .empty good clear

theorem step_trap (asked : Trap.routine s.system vector = .ok called) :
    FileStep s.system.host s.system.kernel.handles (called.target s.system)
      (s.trap vector).2.system.host (s.trap vector).2.system.kernel.handles := by
  change FileStep _ _ _ (Trap.serve vector s.system).2.host
    (Trap.serve vector s.system).2.kernel.handles
  obtain ⟨registers, same⟩ := Trap.after_serve asked
  rw [same]
  exact called.steps_run s.system

theorem Filed.trap (filed : s.Filed) (vector : UInt8) : (s.trap vector).2.Filed := by
  cases asked : Trap.routine s.system vector with
  | ok called => exact filed.of_step (step_trap asked)
  | error cause =>
    have same : (Trap.serve vector s.system).2 = s.system := by rw [Trap.serve, asked]
    change (Trap.serve vector s.system).2.host.Backs (Trap.serve vector s.system).2.kernel.handles
    rwa [same]

theorem Filed.perform (filed : s.Filed) (action : Action) : (s.perform action).Filed := by
  have forgotten : s.system.host.Backs s.system.kernel.handles.closeFiles := by
    rw [Handles.closeFiles_eq_empty]
    exact .empty filed.isTree filed.clear
  by_cases trap : ∃ vector, action = .trap vector
  · obtain ⟨vector, rfl⟩ := trap
    exact filed.trap vector
  have noTrap : ∀ vector, action ≠ .trap vector := fun vector same => trap ⟨vector, same⟩
  cases action with
  | load file args =>
    rw [Session.perform, load]
    split
    · exact filed
    · exact forgotten
  | close => exact forgotten
  | _ =>
    obtain ⟨host, suspended, kernel⟩ := kernel_perform (s := s) rfl noTrap
    rw [Filed, host, kernel]
    exact filed

theorem filed_performAll (filed : s.Filed) (actions : List Action) : (s.performAll actions).Filed :=
  performAll_induction Filed (fun _ => True) (fun _ action _ filed => filed.perform action)
    (fun _ _ => trivial) filed

/-- A trap asks for a call, the call answers, and the program goes on. -/
structure Succeeds (s : Session) (vector : UInt8) (called : Routine) (t : Session) : Prop where
  asked : Trap.routine s.system vector = .ok called
  answered : ∃ result u, called.run.run s.system = .ok (.value result) u
  reached : s.perform (.trap vector) = t

theorem trap_of_run {result : UInt32} {u : System}
    (asked : Trap.routine s.system vector = .ok called)
    (ran : called.run.run s.system = .ok (.value result) u) :
    (s.perform (.trap vector)).system = Trap.answer u result := by
  change (Trap.serve vector s.system).2 = _
  rw [Trap.serve, asked]
  dsimp only
  rw [Trap.complete, ran]

theorem Succeeds.exists_answer {m : Service UInt32} (h : s.Succeeds vector called t)
    (same : called.run = .value <$> m) :
    ∃ result u, m.run s.system = .ok result u ∧ t.system = Trap.answer u result := by
  obtain ⟨asked, ⟨result, u, ran⟩, rfl⟩ := h
  have after := trap_of_run asked ran
  rw [same] at ran
  obtain ⟨_, ran', told⟩ := Service.ok_of_map ran
  cases told
  exact ⟨result, u, ran', after⟩

theorem Succeeds.exists_run {m : Service UInt32} (h : s.Succeeds vector called t)
    (same : called.run = .value <$> m) : ∃ result u, m.run s.system = .ok result u ∧
      t.system.fileView = u.fileView ∧ t.system.memory = u.memory ∧
      t.system.registers.get .answer = result := by
  obtain ⟨result, u, ran, after⟩ := h.exists_answer same
  refine ⟨result, u, ran, ?_, ?_, ?_⟩
  · rw [after]
    rfl
  · rw [after]
    rfl
  · rw [after, Trap.answer, Registers.get_set_answer]

theorem succeeds_of_run {m : Service UInt32} {result : UInt32} {u : System}
    (asked : Trap.routine s.system vector = .ok called) (same : called.run = .value <$> m)
    (ran : m.run s.system = .ok result u) :
    s.Succeeds vector called (s.perform (.trap vector)) := by
  refine ⟨asked, ⟨result, u, ?_⟩, rfl⟩
  rw [same, Service.run_map, ran]

def answers (called : Routine) (s : Session) : Bool :=
  match called.run.run s.system with
  | .ok (.value _) _ => true
  | _ => false

theorem exists_of_answers (h : answers called s = true) :
    ∃ result u, called.run.run s.system = .ok (.value result) u := by
  unfold answers at h
  split at h
  next result u ran => exact ⟨result, u, ran⟩
  · cases h

instance decidableSucceeds (s : Session) (vector : UInt8) (called : Routine) :
    Decidable (s.Succeeds vector called (s.perform (.trap vector))) :=
  decidable_of_iff (Trap.routine s.system vector = .ok called ∧ answers called s = true)
    ⟨fun ⟨asked, answered⟩ => ⟨asked, exists_of_answers answered, rfl⟩,
      fun h => ⟨h.asked, by obtain ⟨_, _, ran⟩ := h.answered; rw [answers, ran]⟩⟩

theorem exists_reads (sound : s.system.memory.Sound)
    (holds : s.system.memory.Each Area.HoldsWrites)
    (asked : s.system.Transfers handle count buffer)
    (given : s.system.fileView.opened handle = some f) (h : s.Succeeds vector .readFile t) :
    ∃ data, s.system.Reads handle count buffer f data t.system := by
  obtain ⟨result, u, ran, view, memory, answer⟩ := h.exists_run rfl
  rw [Service.run_readFile asked given] at ran
  split at ran
  next writable =>
    split at ran
    · cases ran
    next data moved got =>
      dsimp only at ran
      split at ran
      · cases ran
      next filled stored =>
        cases ran
        obtain ⟨data_eq, rfl⟩ := HostTree.read_eq_ok got
        have length : data.length =
            min count.toNat ((s.system.fileView.bytes f.file).length - f.position) := by
          rw [data_eq, Content.length_read, ← Content.length_bytes]
          rfl
        have short : data.length < UInt32.size := by
          have bound := count.toNat_lt_size
          omega
        refine ⟨data, ⟨?_, ?_, fun some => ?_, fun addr outside => ?_, ?_⟩⟩
        · rw [data_eq, Content.read_eq]
          rfl
        · rw [answer, ← length, Nat.toUInt32_eq, UInt32.toNat_ofNat_of_lt' short]
        · rw [memory]
          exact sound.ordered.peekBytes_of_store holds some stored
        · have changed := sound.ordered.changedIn_store stored
          rw [memory]
          exact changed.byteAt?_eq sound.ordered (fun a member _ => sound.steady a member)
            fun inside => outside inside.1
        · exact view.trans (System.fileView_replace given _)
  · cases ran

theorem exists_writes (sound : s.system.memory.Sound) (filed : s.Filed)
    (asked : s.system.Transfers handle count buffer)
    (given : s.system.fileView.opened handle = some f) (some : count ≠ 0)
    (h : s.Succeeds vector .writeFile t) :
    ∃ data, s.system.Writes handle count buffer f data t.system := by
  obtain ⟨result, u, ran, view, _, answer⟩ := h.exists_run rfl
  rw [Service.run_writeFile asked given] at ran
  split at ran
  · cases ran
  next data memory loaded =>
    split at ran
    · cases ran
    next moved host sent =>
      cases ran
      have length := sound.ordered.length_load loaded
      have asked' : count.toNat ≠ 0 := fun none => some (UInt32.toNat_inj.mp none)
      have filled : data ≠ [] := by
        rintro rfl
        exact asked' length.symm
      obtain ⟨rfl, rfl⟩ := HostTree.write_eq_ok sent
      refine ⟨data, ⟨⟨memory, loaded⟩, fun area found buffer => ?_, length, answer, view.trans ?_⟩⟩
      · exact sound.ordered.peekBytes_of_load asked' found buffer loaded
      rw [if_neg filled, ← length]
      have known := filed.known handle f given
      have bytes : ((s.system.host.file f.file).content.write f.position data).bytes =
          Content.splice (s.system.host.bytes f.file) f.position data :=
        Content.bytes_write (filed.clear f.file) f.position filled
      have changed := HostTree.bytes_modifyFile known fun file =>
        { file with content := file.content.write f.position data }
      rw [bytes] at changed
      have moved := Handles.opened_replace given { f with position := f.position + data.length }
      rw [System.fileView]
      exact congrArg₂ FileView.mk changed moved

theorem succeeds_readFile (asked : Trap.routine s.system vector = .ok .readFile)
    (transfers : s.system.Transfers handle count buffer)
    (given : s.system.fileView.opened handle = some f) (readable : f.readable = true)
    (writable : isWritable s.system buffer count.toNat = true) :
    s.Succeeds vector .readFile (s.perform (.trap vector)) := by
  have ran := Service.run_readFile transfers given
  obtain ⟨data, moved, got⟩ := s.system.host.exists_read readable count.toNat
  have short : data.length ≤ count.toNat := HostTree.length_of_read got
  obtain ⟨memory, stored⟩ := Service.exists_store_of_isWritable writable short
  rw [if_pos writable, got] at ran
  dsimp only at ran
  rw [stored] at ran
  exact succeeds_of_run asked rfl ran

theorem succeeds_writeFile (asked : Trap.routine s.system vector = .ok .writeFile)
    (transfers : s.system.Transfers handle count buffer)
    (given : s.system.fileView.opened handle = some f) (writable : f.writable = true)
    {data : List UInt8} {memory : GuestMemory}
    (loaded : s.system.memory.load buffer count.toNat s.system.registers.privilege =
      .ok (data, memory)) : s.Succeeds vector .writeFile (s.perform (.trap vector)) := by
  have ran := Service.run_writeFile transfers given
  obtain ⟨moved, host, sent⟩ := s.system.host.exists_write writable data
  rw [loaded] at ran
  dsimp only at ran
  rw [sent] at ran
  exact succeeds_of_run asked rfl ran

theorem opened_trap (given : s.system.fileView.opened handle = some f)
    (unnamed : ∀ called, Trap.routine s.system vector = .ok called →
      called.target s.system ≠ .handle handle) :
    (s.perform (.trap vector)).system.fileView.opened handle = some f := by
  cases asked : Trap.routine s.system vector with
  | ok called => exact (step_trap asked).opened_eq (unnamed called asked) given
  | error cause =>
    change (Trap.serve vector s.system).2.fileView.opened handle = some f
    rw [Trap.serve, asked]
    exact given

theorem bytes_trap (asked : Trap.routine s.system vector = .ok called)
    (named : called.target s.system = .handle handle) {id : Nat}
    (apart : ∀ f, s.system.fileView.opened handle = some f → f.file ≠ id) :
    (s.perform (.trap vector)).system.fileView.bytes id = s.system.fileView.bytes id := by
  have step := step_trap asked
  rw [named] at step
  exact step.bytes_eq apart

theorem fileView_deleteFile (filed : s.Filed)
    (asked : Trap.routine s.system vector = .ok .deleteFile) :
    (s.perform (.trap vector)).system.fileView = s.system.fileView := by
  obtain ⟨registers, same⟩ := Trap.after_serve asked
  change (Trap.serve vector s.system).2.fileView = _
  rw [same, Routine.run, Service.after_map]
  exact Service.fileView_after_deleteFile filed.isTree

theorem fileView_perform (keeps : action.keepsProgram)
    (noTrap : ∀ vector, action ≠ .trap vector) :
    (s.perform action).system.fileView = s.system.fileView := by
  obtain ⟨host, suspended, kernel⟩ := kernel_perform (s := s) keeps noTrap
  rw [System.fileView, host, kernel]
  rfl

/-- How calls work on files, seen as byte arrays with one position for each handle. -/
structure RefinesArrays (s : Session) : Prop where
  reads : ∀ vector t handle count buffer f, s.Succeeds vector .readFile t →
    s.system.Transfers handle count buffer → s.system.fileView.opened handle = some f →
      ∃ data, s.system.Reads handle count buffer f data t.system
  writes : ∀ vector t handle count buffer f, s.Succeeds vector .writeFile t →
    s.system.Transfers handle count buffer → s.system.fileView.opened handle = some f →
      count ≠ 0 → ∃ data, s.system.Writes handle count buffer f data t.system
  seeks : ∀ vector t handle offset word f, s.Succeeds vector .seekFile t →
    s.system.arguments.long 2 = .ok offset → s.system.arguments.signedWord 6 = .ok handle →
    s.system.arguments.word 8 = .ok word → s.system.fileView.opened handle = some f →
      ∃ (origin : SeekOrigin) (position : Nat),
        Service.seekOrigin? word offset.toInt32 = some origin ∧
        (position : Int) = HostTree.seekBase (s.system.fileView.bytes f.file).length f origin +
          offset.toInt32.toInt ∧
        (t.system.registers.get .answer).toNat = position ∧
        t.system.fileView = s.system.fileView.give handle { f with position }
  opens : ∀ vector t, s.Succeeds vector .openFile t → ∃ handle f path,
    (Service.argumentPath 2).run s.system = .ok path s.system ∧
    s.system.host.fileAt path = .ok f.file ∧ f.position = 0 ∧
    t.system.registers.get .answer = handle.toUInt16.toUInt32 ∧
    s.system.fileView.opened handle = none ∧
    t.system.fileView = s.system.fileView.give handle f
  /-- A file that is created is empty, also for the handles that stand for it already. -/
  creates : ∀ vector t, s.Succeeds vector .createFile t → ∃ handle f, f.position = 0 ∧
    t.system.registers.get .answer = handle.toUInt16.toUInt32 ∧
    s.system.fileView.opened handle = none ∧
    t.system.fileView = (s.system.fileView.replace f.file []).give handle f
  closes : ∀ vector t handle, s.Succeeds vector .closeFile t →
    s.system.arguments.signedWord 2 = .ok handle →
      t.system.fileView = s.system.fileView.takeBack handle
  deletes : ∀ vector, Trap.routine s.system vector = .ok .deleteFile →
    (s.perform (.trap vector)).system.fileView = s.system.fileView
  /-- Whatever comes of a call, the handles that it does not name keep file and position. -/
  others : ∀ vector handle f, s.system.fileView.opened handle = some f →
    (∀ called, Trap.routine s.system vector = .ok called →
      called.target s.system ≠ .handle handle) →
        (s.perform (.trap vector)).system.fileView.opened handle = some f
  contents : ∀ vector called handle id, Trap.routine s.system vector = .ok called →
    called.target s.system = .handle handle →
    (∀ f, s.system.fileView.opened handle = some f → f.file ≠ id) →
      (s.perform (.trap vector)).system.fileView.bytes id = s.system.fileView.bytes id
  between : ∀ action : Action, action.keepsProgram → (∀ vector, action ≠ .trap vector) →
    (s.perform action).system.fileView = s.system.fileView
  canRead : ∀ vector handle count buffer f, Trap.routine s.system vector = .ok .readFile →
    s.system.Transfers handle count buffer → s.system.fileView.opened handle = some f →
    f.readable = true → isWritable s.system buffer count.toNat = true →
      s.Succeeds vector .readFile (s.perform (.trap vector))
  canWrite : ∀ vector handle count buffer f data memory,
    Trap.routine s.system vector = .ok .writeFile → s.system.Transfers handle count buffer →
    s.system.fileView.opened handle = some f → f.writable = true →
    s.system.memory.load buffer count.toNat s.system.registers.privilege = .ok (data, memory) →
      s.Succeeds vector .writeFile (s.perform (.trap vector))

variable {start : Session} {actions : List Action}

/-- Files refine byte arrays with one position for each handle. At any point of any run a read gives
the bytes from the position of its handle on, as far as they are asked for and there, and a write
replaces them; each moves its own handle on and no other. A name that has been removed makes no
difference to the handles that stand for its file: they can be read and written as before. -/
theorem refinesArrays_performAll (sound : start.system.memory.Sound)
    (holds : start.system.memory.Each Area.HoldsWrites) (filed : start.Filed)
    (reached : start.performAll actions = s) : s.RefinesArrays := by
  subst reached
  have sound' := sound_performAll sound actions
  have holds' := holdsWrites_performAll holds actions
  have filed' := filed_performAll filed actions
  refine
    { reads := fun vector t handle count buffer f h asked given => ?_
      writes := fun vector t handle count buffer f h asked given some => ?_
      seeks := fun vector t handle offset word f h distance named mode given => ?_
      opens := fun vector t h => ?_
      creates := fun vector t h => ?_
      closes := fun vector t handle h named => ?_
      deletes := fun vector asked => fileView_deleteFile filed' asked
      others := fun vector handle f given unnamed => opened_trap given unnamed
      contents := fun vector called handle id asked named apart =>
        bytes_trap asked named apart
      between := fun action keeps noTrap => fileView_perform keeps noTrap
      canRead := fun vector handle count buffer f asked transfers given readable writable =>
        succeeds_readFile asked transfers given readable writable
      canWrite := fun vector handle count buffer f data memory asked transfers given writable
        loaded => succeeds_writeFile asked transfers given writable loaded }
  · exact exists_reads sound' holds' asked given h
  · exact exists_writes sound' filed' asked given some h
  · obtain ⟨result, u, ran, view, _, answer⟩ := h.exists_run rfl
    obtain ⟨origin, position, found, base, value, moved⟩ :=
      Service.fileView_of_seekFile ran distance named mode given
    exact ⟨origin, position, found, base, answer ▸ value, view.trans moved⟩
  · obtain ⟨result, u, ran, view, _, answer⟩ := h.exists_run rfl
    obtain ⟨handle, f, path, spelled, found, first, value, free, taken⟩ :=
      Service.fileView_of_openFile ran
    exact ⟨handle, f, path, spelled, found, first, answer.trans value, free, view.trans taken⟩
  · obtain ⟨result, u, ran, view, _, answer⟩ := h.exists_run rfl
    obtain ⟨handle, f, first, value, free, taken⟩ :=
      Service.fileView_of_createFile filed'.isTree ran
    exact ⟨handle, f, first, answer.trans value, free, view.trans taken⟩
  · obtain ⟨result, u, ran, view, _⟩ := h.exists_run rfl
    exact view.trans (Service.fileView_of_closeFile ran named)

/-- A program that reads two bytes from a file that has no name any more. -/
def readingOpened : Session where
  system :=
    { memory := ⟨[.ofBuffer "ram" 0 #[0, 0x3f, 0, 6, 0, 0, 0, 2, 0, 0, 0, 12, 0, 0] .readWrite]⟩
      kernel :=
        { handles := ((Handles.empty.insert ⟨0, ["F"], 1, true, false⟩).map (·.2)).getD .empty
          drive := { root := [] } }
      host := { files := #[{ content := .ofBytes #[1, 2, 3, 4] }] } }

theorem filed_readingOpened : readingOpened.Filed := by
  refine ⟨HostTree.isTree_of_entries (fun x h => by cases h) (fun x h => by cases h)
    (fun x h => by cases h), fun id => ?_, fun handle f given => ?_⟩
  · cases id with
    | zero => exact Content.isClear_ofBytes _
    | succ id => exact Content.isClear_empty
  · obtain ⟨i, _, held⟩ := HandleTable.exists_index?_of_get? (Handles.get?_of_opened given)
    have slots : ∀ i, readingOpened.system.kernel.handles.table.slots.get i =
        HandleTable.initialSlot i ∨ readingOpened.system.kernel.handles.table.slots.get i =
          some (.file ⟨0, ["F"], 1, true, false⟩) := by decide
    obtain initial | opened := slots i
    · exact absurd (initial.symm.trans held) (HandleTable.initialSlot_ne_file i f)
    · obtain rfl : _ = f := HandleTarget.file.inj (Option.some.inj (opened.symm.trans held))
      exact Nat.zero_lt_one

theorem refinesArrays_performAll_readingOpened :
    ∃ t, readingOpened.Succeeds Trap.gemdosVector .readFile t ∧
      (t.system.registers.get .answer).toNat = 2 ∧
      t.system.memory.peekBytes 12 2 .user = .ok [2, 3] ∧
      t.system.fileView.opened 6 = some ⟨0, ["F"], 3, true, false⟩ := by
  have sound : readingOpened.system.memory.Sound :=
    ⟨⟨List.pairwise_singleton _ _, by decide⟩, List.forall_mem_singleton.mpr trivial⟩
  have holds : readingOpened.system.memory.Each Area.HoldsWrites :=
    List.forall_mem_singleton.mpr fun _ => ⟨rfl, rfl⟩
  have reached : readingOpened.performAll [] = readingOpened := rfl
  have refines := refinesArrays_performAll sound holds filed_readingOpened reached
  have asked : Trap.routine readingOpened.system Trap.gemdosVector = .ok .readFile := by decide
  have transfers : readingOpened.system.Transfers 6 2 12 := ⟨by decide, by decide, by decide⟩
  have given : readingOpened.system.fileView.opened 6 = some ⟨0, ["F"], 1, true, false⟩ := by
    decide
  have done := refines.canRead _ _ _ _ _ asked transfers given rfl (by decide)
  obtain ⟨data, read⟩ := refines.reads _ _ _ _ _ _ done transfers given
  have data_eq : data = [2, 3] := read.data_eq.trans (by decide)
  subst data_eq
  refine ⟨_, done, read.result.trans (by decide), read.stored (List.cons_ne_nil _ _), ?_⟩
  rw [read.view]
  rfl

end Session

end AtariTos

import AtariTos.Proofs.CallFailures
import AtariTos.Proofs.FileSteps
import AtariTos.Proofs.MemoryReads

namespace AtariTos

/-- The bytes of each file, and what each handle stands for. -/
structure FileView where
  bytes : Nat → List UInt8
  opened : Int16 → Option OpenFile

namespace FileView

/-- A handle stands for a file, or for the same file at another position, from now on. -/
def give (view : FileView) (handle : Int16) (f : OpenFile) : FileView :=
  { view with opened := Function.update view.opened handle (some f) }

def takeBack (view : FileView) (handle : Int16) : FileView :=
  { view with opened := Function.update view.opened handle none }

def replace (view : FileView) (id : Nat) (bytes : List UInt8) : FileView :=
  { view with bytes := Function.update view.bytes id bytes }

end FileView

namespace System

def fileView (s : System) : FileView :=
  ⟨s.host.bytes, s.kernel.handles.opened⟩

/-- The arguments of a call name a handle, a number of bytes and a buffer. -/
structure Transfers (s : System) (handle : Int16) (count buffer : UInt32) : Prop where
  handle : s.arguments.signedWord 2 = .ok handle
  count : s.arguments.long 4 = .ok count
  buffer : s.arguments.long 8 = .ok buffer

variable {s t : System} {handle : Int16} {count buffer : UInt32} {f : OpenFile}
  {data : List UInt8}

theorem Transfers.run_bind {α : Type} (asked : s.Transfers handle count buffer)
    (f : Int16 → UInt32 → UInt32 → Service α) :
    (Service.argumentHandle 2 >>= fun handle => Service.argumentLong 4 >>= fun count =>
      Service.argumentLong 8 >>= fun buffer => f handle count buffer).run s =
      (f handle count buffer).run s := by
  rw [Service.run_argumentHandle_bind, asked.handle]
  dsimp only
  rw [Service.run_argumentLong_bind, asked.count]
  dsimp only
  rw [Service.run_argumentLong_bind, asked.buffer]

theorem exists_transfers_of_run {α : Type} {result : α} {f : Int16 → UInt32 → UInt32 → Service α}
    (ran : (Service.argumentHandle 2 >>= fun handle => Service.argumentLong 4 >>= fun count =>
      Service.argumentLong 8 >>= fun buffer => f handle count buffer).run s = .ok result t) :
    ∃ handle count buffer, s.Transfers handle count buffer ∧
      (f handle count buffer).run s = .ok result t := by
  obtain ⟨handle, handle_eq, ran⟩ := Service.exists_handle_of_run ran
  obtain ⟨count, count_eq, ran⟩ := Service.exists_long_of_run ran
  obtain ⟨buffer, buffer_eq, ran⟩ := Service.exists_long_of_run ran
  exact ⟨handle, count, buffer, ⟨handle_eq, count_eq, buffer_eq⟩, ran⟩

theorem fileView_replace (given : s.kernel.handles.opened handle = some f) (moved : OpenFile) :
    ({ s with kernel := { s.kernel with handles := s.kernel.handles.replace handle moved } } :
      System).fileView = s.fileView.give handle moved :=
  congrArg (FileView.mk s.host.bytes) (Handles.opened_replace given moved)

/-- The bytes of a file from the position of a handle on, as many as are asked for and there, get
into a buffer, and the handle moves on behind them. -/
structure Reads (s : System) (handle : Int16) (count buffer : UInt32) (f : OpenFile)
    (data : List UInt8) (t : System) : Prop where
  data_eq : data = ((s.fileView.bytes f.file).drop f.position).take count.toNat
  result : (t.registers.get .answer).toNat =
    min count.toNat ((s.fileView.bytes f.file).length - f.position)
  stored : data ≠ [] → t.memory.peekBytes buffer data.length s.registers.privilege = .ok data
  elsewhere : ∀ addr, addr.toNat ∉ Set.Ico buffer.toNat (buffer.toNat + data.length) →
    t.memory.byteAt? addr = s.memory.byteAt? addr
  view : t.fileView = s.fileView.give handle { f with position := f.position + data.length }

/-- The bytes of a buffer replace those of a file from the position of a handle on, with zeros in
between if it is past the end, and the handle moves on behind them. -/
structure Writes (s : System) (handle : Int16) (count buffer : UInt32) (f : OpenFile)
    (data : List UInt8) (t : System) : Prop where
  loaded : ∃ memory, s.memory.load buffer count.toNat s.registers.privilege = .ok (data, memory)
  seen : ∀ area, s.memory.find? buffer = some area → area.isBuffer = true →
    s.memory.peekBytes buffer count.toNat s.registers.privilege = .ok data
  length : data.length = count.toNat
  result : t.registers.get .answer = count
  view : t.fileView =
    (s.fileView.replace f.file
      (Content.splice (s.fileView.bytes f.file) f.position data)).give handle
        { f with position := f.position + count.toNat }

end System

namespace Service

variable {s t : System} {handle : Int16} {count buffer result : UInt32} {f : OpenFile}

theorem run_fetch (given : s.kernel.handles.opened handle = some f) (count : Nat) :
    (fetch handle count).run s =
      match s.host.read f count with
      | .error _ => .error (.status .internalError) s
      | .ok (data, moved) =>
        let kernel := { s.kernel with handles := s.kernel.handles.replace handle moved }
        .ok data { s with kernel } := by
  have target := Handles.get?_of_opened given
  unfold fetch
  rw [run_get_bind, target]
  dsimp only
  unfold HostTree.readFrom
  cases s.host.read f count with
  | ok taken => rfl
  | error cause =>
    exact congrArg (EStateM.Result.error (Failure.status .internalError)) (System.replace_self target)

theorem run_readFile (asked : s.Transfers handle count buffer)
    (given : s.kernel.handles.opened handle = some f) :
    readFile.run s =
      if isWritable s buffer count.toNat then
        match s.host.read f count.toNat with
        | .error _ => .error (.status .internalError) s
        | .ok (data, moved) =>
          let kernel := { s.kernel with handles := s.kernel.handles.replace handle moved }
          match s.memory.store buffer data s.registers.privilege with
          | .error _ => .error (.status .rangeError) { s with kernel }
          | .ok memory => .ok data.length.toUInt32 { s with kernel, memory }
      else .error (.status .rangeError) s := by
  rw [readFile, asked.run_bind]
  have checked := run_requireWritable buffer count.toNat s
  by_cases writable : isWritable s buffer count.toNat
  · rw [if_pos writable] at checked
    have fetched := run_fetch given count.toNat
    rw [if_pos writable, run_bind_of_ok checked]
    cases got : s.host.read f count.toNat with
    | error cause =>
      rw [got] at fetched
      exact run_bind_of_error fetched
    | ok taken =>
      obtain ⟨data, moved⟩ := taken
      rw [got] at fetched
      rw [run_bind_of_ok fetched]
      dsimp only
      have stored := run_storeBuffer buffer data
        { s with kernel := { s.kernel with handles := s.kernel.handles.replace handle moved } }
      dsimp only at stored
      cases put : s.memory.store buffer data s.registers.privilege with
      | error fault =>
        rw [put] at stored
        exact run_bind_of_error stored
      | ok memory =>
        rw [put] at stored
        exact run_bind_of_ok stored
  · rw [if_neg writable] at checked ⊢
    exact run_bind_of_error checked

theorem run_send (given : s.kernel.handles.opened handle = some f) (data : List UInt8) :
    (send handle data).run s =
      match s.host.write f data with
      | .error _ => .error (.status .internalError) s
      | .ok (moved, host) =>
        .ok ()
          { s with
            host
            kernel := { s.kernel with handles := s.kernel.handles.replace handle moved } } := by
  have target := Handles.get?_of_opened given
  unfold send
  rw [run_get_bind, target]
  dsimp only
  unfold HostTree.writeTo
  cases s.host.write f data with
  | ok result => rfl
  | error cause =>
    exact congrArg (EStateM.Result.error (Failure.status .internalError)) (System.replace_self target)

theorem run_writeFile (asked : s.Transfers handle count buffer)
    (given : s.kernel.handles.opened handle = some f) :
    writeFile.run s =
      match s.memory.load buffer count.toNat s.registers.privilege with
      | .error _ => .error (.status .rangeError) s
      | .ok (data, memory) =>
        match s.host.write f data with
        | .error _ => .error (.status .internalError) { s with memory }
        | .ok (moved, host) =>
          .ok count
            { s with
              memory
              host
              kernel := { s.kernel with handles := s.kernel.handles.replace handle moved } } := by
  have known : ¬(s.kernel.handles.get? handle).isNone = true := by
    rw [Handles.get?_of_opened given]
    exact Bool.false_ne_true
  rw [writeFile, asked.run_bind, run_get_bind, if_neg known]
  have fetched := run_loadBuffer buffer count.toNat s
  cases got : s.memory.load buffer count.toNat s.registers.privilege with
  | error fault =>
    rw [got] at fetched
    exact run_bind_of_error fetched
  | ok taken =>
    obtain ⟨data, memory⟩ := taken
    rw [got] at fetched
    have given' : ({ s with memory } : System).kernel.handles.opened handle = some f := given
    have sent := run_send given' data
    dsimp only at sent ⊢
    refine (run_bind_of_ok fetched).trans ?_
    cases put : s.host.write f data with
    | error cause =>
      rw [put] at sent
      exact run_bind_of_error sent
    | ok result =>
      rw [put] at sent
      exact run_bind_of_ok sent

theorem fileView_of_giveHandle (ran : (giveHandle f).run s = .ok result t) :
    ∃ handle, result = handle.toUInt16.toUInt32 ∧ s.fileView.opened handle = none ∧
      t.fileView = s.fileView.give handle f := by
  cases given : s.kernel.handles.insert f with
  | none =>
    unfold giveHandle at ran
    rw [run_get_bind, given] at ran
    cases ran
  | some taken =>
    obtain ⟨handle, next⟩ := taken
    rw [run_giveHandle given] at ran
    cases ran
    obtain ⟨free, same⟩ := Handles.opened_insert given
    exact ⟨handle, rfl, free, congrArg (FileView.mk s.host.bytes) same⟩

theorem fileView_of_openFile (ran : openFile.run s = .ok result t) :
    ∃ handle f path, (argumentPath 2).run s = .ok path s ∧ s.host.fileAt path = .ok f.file ∧
      f.position = 0 ∧ result = handle.toUInt16.toUInt32 ∧ s.fileView.opened handle = none ∧
      t.fileView = s.fileView.give handle f := by
  obtain ⟨path, spelled, ran⟩ := Touches.exists_run (.argumentPath 2) ran
  obtain ⟨word, _, ran⟩ := Touches.exists_run (.argumentWord 6) ran
  cases mode : openMode? word with
  | none =>
    rw [mode] at ran
    cases ran
  | some rights =>
    rw [mode] at ran
    obtain ⟨_, _, ran⟩ := Touches.exists_run .requireFreeHandle ran
    rw [run_get_bind] at ran
    cases found : s.host.fileAt path with
    | error cause =>
      rw [found] at ran
      cases ran
    | ok file =>
      rw [found] at ran
      obtain ⟨handle, value, free, view⟩ := fileView_of_giveHandle ran
      exact ⟨handle, _, path, spelled, found, rfl, value, free, view⟩

/-- The state after a file has been created: it is empty, also for the handles that stand for it
already. -/
theorem fileView_of_createFile (good : s.host.IsTree) (ran : createFile.run s = .ok result t) :
    ∃ handle f, f.position = 0 ∧ result = handle.toUInt16.toUInt32 ∧
      s.fileView.opened handle = none ∧
      t.fileView = (s.fileView.replace f.file []).give handle f := by
  obtain ⟨path, _, ran⟩ := Touches.exists_run (.argumentPath 2) ran
  obtain ⟨_, _, ran⟩ := Touches.exists_run .requireFreeHandle ran
  rw [run_get_bind] at ran
  rcases above : s.host.makeDirectories path.dropLast with ⟨outcome, next⟩
  have made := good.makeEach (HostTree.lineage path.dropLast)
  rw [show s.host.makeEach (HostTree.lineage path.dropLast) = (outcome, next) from above] at made
  obtain ⟨good', same⟩ := made
  rw [above] at ran
  dsimp only at ran
  unfold setHost at ran
  rw [run_modify_bind] at ran
  cases outcome with
  | error cause => cases ran
  | ok _ =>
    cases created : next.createFile path with
    | error cause =>
      rw [created] at ran
      cases ran
    | ok found =>
      obtain ⟨file, grown⟩ := found
      rw [created] at ran
      obtain ⟨handle, value, free, view⟩ := fileView_of_giveHandle ran
      refine ⟨handle, ⟨file, path, 0, false, true⟩, rfl, value, free, view.trans ?_⟩
      have bytes : grown.bytes = Function.update next.bytes file [] :=
        good'.bytes_createFile created
      have old : next.bytes = s.host.bytes := HostTree.bytes_of_files same
      rw [System.fileView, System.fileView, FileView.replace, ← old, ← bytes]

theorem fileView_of_closeFile (ran : closeFile.run s = .ok result t)
    (named : s.arguments.signedWord 2 = .ok handle) : t.fileView = s.fileView.takeBack handle := by
  unfold closeFile at ran
  rw [run_argumentHandle_bind, named] at ran
  dsimp only at ran
  rw [run_get_bind] at ran
  split at ran
  · cases ran
    exact congrArg (FileView.mk s.host.bytes) (Handles.opened_close s.kernel.handles handle)
  · cases ran

theorem fileView_of_seekFile {offset : UInt32} {word : UInt16} (ran : seekFile.run s = .ok result t)
    (distance : s.arguments.long 2 = .ok offset) (named : s.arguments.signedWord 6 = .ok handle)
    (mode : s.arguments.word 8 = .ok word) (given : s.kernel.handles.opened handle = some f) :
    ∃ (origin : SeekOrigin) (position : Nat), seekOrigin? word offset.toInt32 = some origin ∧
      (position : Int) =
        HostTree.seekBase (s.fileView.bytes f.file).length f origin + offset.toInt32.toInt ∧
      result.toNat = position ∧ t.fileView = s.fileView.give handle { f with position } := by
  unfold seekFile at ran
  rw [run_argumentLong_bind, distance] at ran
  dsimp only at ran
  rw [run_argumentHandle_bind, named] at ran
  dsimp only at ran
  rw [run_argumentWord_bind, mode] at ran
  dsimp only at ran
  cases named : seekOrigin? word offset.toInt32 with
  | none =>
    rw [named] at ran
    cases ran
  | some origin =>
    rw [named] at ran
    dsimp only at ran
    rw [run_get_bind, Handles.get?_of_opened given] at ran
    dsimp only at ran
    cases sought : s.host.seek f origin offset.toInt32.toInt with
    | error cause =>
      rw [sought] at ran
      cases ran
    | ok moved =>
      rw [sought] at ran
      obtain ⟨position, reached, rfl⟩ := HostTree.seek_eq_ok sought
      dsimp only at ran
      unfold replaceFile setKernel at ran
      rw [run_modify_bind] at ran
      split at ran
      next small =>
        cases ran
        refine ⟨origin, position, rfl, reached, ?_, System.fileView_replace given _⟩
        rw [Nat.toUInt32_eq, UInt32.toNat_ofNat_of_lt' small]
      · cases ran

theorem fileView_after_deleteFile (good : s.host.IsTree) :
    (deleteFile.after s).fileView = s.fileView := by
  unfold deleteFile
  rcases Touches.after_bind (.argumentPath 2) _ s with same | ⟨path, _, same⟩
  · rw [same]
  · rw [same, after_get_bind]
    cases removed : s.host.removeName path with
    | error cause => rfl
    | ok rest =>
      have bytes : rest.bytes = s.host.bytes := HostTree.bytes_of_files (good.removeName removed).2
      exact congrArg (FileView.mk · s.kernel.handles.opened) bytes

end Service

end AtariTos

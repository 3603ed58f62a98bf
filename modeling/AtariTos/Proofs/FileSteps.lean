import AtariTos.Proofs.HostTransfers

namespace AtariTos

namespace HostTree

/-- The host's files are a good tree and clear, and every handle stands for one of them. -/
structure Backs (tree : HostTree) (handles : Handles) : Prop where
  isTree : tree.IsTree
  clear : ∀ id, (tree.file id).content.IsClear
  known : ∀ handle f, handles.opened handle = some f → f.file < tree.files.size

end HostTree

/-- What the arguments of a call on files name. -/
inductive FileTarget where
  | nothing
  | handle (handle : Int16)
  | path
deriving DecidableEq

/-- What a call on files does to the host and to the handles. -/
inductive FileStep (tree : HostTree) (handles : Handles) :
    FileTarget → HostTree → Handles → Prop where
  | kept {target : FileTarget} : FileStep tree handles target tree handles
  | directories (paths : List HostPath) :
      FileStep tree handles .path (tree.makeEach paths).2 handles
  | created {paths : List HostPath} {path : HostPath} {f : OpenFile} {grown : HostTree}
      {handle : Int16} {next : Handles}
      (made : (tree.makeEach paths).2.createFile path = .ok (f.file, grown))
      (given : handles.insert f = some (handle, next)) : FileStep tree handles .path grown next
  | opened {path : HostPath} {f : OpenFile} {handle : Int16} {next : Handles}
      (found : tree.fileAt path = .ok f.file)
      (given : handles.insert f = some (handle, next)) : FileStep tree handles .path tree next
  | removed {path : HostPath} {next : HostTree} (gone : tree.removeName path = .ok next) :
      FileStep tree handles .path next handles
  | moved {handle : Int16} {f : OpenFile} (position : Nat)
      (given : handles.opened handle = some f) :
      FileStep tree handles (.handle handle) tree (handles.replace handle { f with position })
  | written {handle : Int16} {f moved : OpenFile} {data : List UInt8} {next : HostTree}
      (given : handles.opened handle = some f) (sent : tree.write f data = .ok (moved, next)) :
      FileStep tree handles (.handle handle) next (handles.replace handle moved)
  | closed {handle : Int16} :
      FileStep tree handles (.handle handle) tree (handles.close handle).2

namespace FileStep

variable {target : FileTarget} {tree next : HostTree} {handles handles' : Handles}
  {handle other : Int16} {f : OpenFile}

theorem opened_eq (step : FileStep tree handles target next handles')
    (unnamed : target ≠ .handle other) (given : handles.opened other = some f) :
    handles'.opened other = some f := by
  have taken : ∀ handle, handles.opened handle = none → other ≠ handle := by
    rintro handle free rfl
    cases given.symm.trans free
  cases step with
  | kept | directories | removed => exact given
  | created _ inserted | opened _ inserted =>
    obtain ⟨free, same⟩ := Handles.opened_insert inserted
    rw [same, Function.update_of_ne (taken _ free), given]
  | moved position before =>
    have differ : other ≠ _ := fun same => unnamed (congrArg _ same.symm)
    rw [Handles.opened_replace before, Function.update_of_ne differ, given]
  | written before sent =>
    have differ : other ≠ _ := fun same => unnamed (congrArg _ same.symm)
    rw [Handles.opened_replace before, Function.update_of_ne differ, given]
  | closed =>
    have differ : other ≠ _ := fun same => unnamed (congrArg _ same.symm)
    rw [Handles.opened_close, Function.update_of_ne differ, given]

/-- A call on one handle changes no file but the one that the handle stands for. -/
theorem bytes_eq (step : FileStep tree handles (.handle handle) next handles') {id : Nat}
    (apart : ∀ f, handles.opened handle = some f → f.file ≠ id) :
    next.bytes id = tree.bytes id := by
  cases step with
  | kept | moved | closed => rfl
  | @written _ f moved data next given sent =>
    obtain ⟨_, rfl⟩ := HostTree.write_eq_ok sent
    split
    · rfl
    · exact congrArg (·.content.bytes) (HostTree.file_modifyFile_of_ne (apart f given).symm _)

end FileStep

namespace HostTree.Backs

variable {target : FileTarget} {tree next : HostTree} {handles handles' : Handles}

theorem empty (good : tree.IsTree) (clear : ∀ id, (tree.file id).content.IsClear) :
    tree.Backs .empty := by
  refine ⟨good, clear, fun handle f given => ?_⟩
  have isOpen := Handles.isOpen_of_get? (Handles.get?_of_opened given)
  exact absurd isOpen Handles.not_isOpen_empty

theorem of_files (backs : tree.Backs handles) (good : next.IsTree)
    (same : next.files = tree.files) : next.Backs handles := by
  refine ⟨good, fun id => ?_, fun handle f given => ?_⟩
  · rw [file, same]
    exact backs.clear id
  · rw [same]
    exact backs.known handle f given

theorem update (backs : tree.Backs handles) {handle : Int16} {given? : Option OpenFile}
    (same : handles'.opened = Function.update handles.opened handle given?)
    (known : ∀ f, given? = some f → f.file < tree.files.size) : tree.Backs handles' := by
  refine ⟨backs.isTree, backs.clear, fun other f given => ?_⟩
  rw [same] at given
  by_cases here : other = handle
  · rw [here, Function.update_self] at given
    exact known f given
  · rw [Function.update_of_ne here] at given
    exact backs.known other f given

theorem createFile (backs : tree.Backs handles) {path : HostPath} {id : Nat}
    (made : tree.createFile path = .ok (id, next)) : next.Backs handles := by
  obtain ⟨good, _, size⟩ := backs.isTree.createFile made
  refine ⟨good, fun other => ?_, fun handle f given => ?_⟩
  · rcases backs.isTree.file_createFile made other with same | empty
    · rw [same]
      exact backs.clear other
    · rw [empty]
      exact Content.isClear_empty
  · exact Nat.lt_of_lt_of_le (backs.known handle f given) size

theorem write (backs : tree.Backs handles) {f moved : OpenFile} {data : List UInt8}
    (sent : tree.write f data = .ok (moved, next)) : next.Backs handles := by
  obtain ⟨_, rfl⟩ := write_eq_ok sent
  split
  · exact backs
  refine ⟨backs.isTree.modifyFile f.file _, fun id => ?_, fun handle g given => ?_⟩
  · by_cases same : id = f.file
    · by_cases known : id < tree.files.size
      · rw [← same, file_modifyFile_self known]
        exact (backs.clear id).write _ _
      · have beyond : tree.files.size ≤ id := by omega
        have none : (tree.modifyFile id fun file =>
            { file with content := file.content.write f.position data }).files[id]? = none := by
          simp [modifyFile, beyond]
        rw [← same, file, Array.getD_eq_getD_getElem?, none]
        exact Content.isClear_empty
    · rw [file_modifyFile_of_ne same]
      exact backs.clear id
  · simp only [modifyFile, Array.size_modify]
    exact backs.known handle g given

theorem of_step (backs : tree.Backs handles) (step : FileStep tree handles target next handles') :
    next.Backs handles' := by
  cases step with
  | kept => exact backs
  | directories paths =>
    obtain ⟨good, same⟩ := backs.isTree.makeEach paths
    exact backs.of_files good same
  | @created paths path f grown handle next' made given =>
    obtain ⟨good, same⟩ := backs.isTree.makeEach paths
    have backs' := (backs.of_files good same).createFile made
    have known : f.file < next.files.size := (good.createFile made).2.1
    refine backs'.update (Handles.opened_insert given).2 fun g here => ?_
    exact Option.some.inj here ▸ known
  | @opened path f handle next' found given =>
    obtain ⟨d, reached⟩ := fileAt_eq_ok found
    have known := backs.isTree.known d f.file (backs.isTree.holds_of_locate reached)
    refine backs.update (Handles.opened_insert given).2 fun g here => ?_
    exact Option.some.inj here ▸ known
  | @moved handle f position given =>
    have known := backs.known handle f given
    refine backs.update (Handles.opened_replace given _) fun g here => ?_
    exact Option.some.inj here ▸ known
  | @written handle f moved data next' given sent =>
    have backs' := backs.write sent
    have known := backs'.known handle f given
    obtain ⟨rfl, _⟩ := write_eq_ok sent
    refine backs'.update (Handles.opened_replace given _) fun g here => ?_
    exact Option.some.inj here ▸ known
  | closed => exact backs.update (Handles.opened_close handles _) fun g here => by cases here
  | removed gone =>
    obtain ⟨good, same⟩ := backs.isTree.removeName gone
    exact backs.of_files good same

end HostTree.Backs

namespace Service

variable {α β : Type} {m : Service α} {f : α → Service β} {s t : System} {target : FileTarget}
  {offset : UInt32}

/-- What a service does is a step of the files and handles. -/
def Steps (target : FileTarget) (m : Service α) (s : System) : Prop :=
  FileStep s.host s.kernel.handles target (m.after s).host (m.after s).kernel.handles

namespace Steps

theorem of_same (host : (m.after s).host = s.host)
    (handles : (m.after s).kernel.handles = s.kernel.handles) : Steps target m s := by
  rw [Steps, host, handles]
  exact .kept

theorem of_touches (parts : List Part) (h : Touches parts m)
    (apart : .host ∉ parts ∧ .handles ∉ parts) : Steps target m s :=
  .of_same (h s .host apart.1) (h s .handles apart.2)

theorem map (g : α → β) (h : Steps target m s) : Steps target (g <$> m) s := by
  rw [Steps, after_map]
  exact h

theorem reads (first : Touches [] m)
    (rest : ∀ value, m.run s = .ok value s → Steps target (f value) s) :
    Steps target (m >>= f) s := by
  rcases first.after_bind f s with same | ⟨value, ran, same⟩
  · exact .of_same (by rw [same]) (by rw [same])
  · rw [Steps, same]
    exact rest value ran

theorem skip (parts : List Part) (first : Touches parts m)
    (apart : .host ∉ parts ∧ .handles ∉ parts) (rest : ∀ value t, Steps target (f value) t) :
    Steps target (m >>= f) s := by
  have host : (m.after s).host = s.host := first s .host apart.1
  have handles : (m.after s).kernel.handles = s.kernel.handles := first s .handles apart.2
  cases ran : m.run s with
  | ok value t =>
    rw [after_of_ok ran] at host handles
    have step := rest value t
    rw [Steps, host, handles] at step
    rwa [Steps, after_bind_of_ok ran]
  | error failure t =>
    rw [after_of_error ran] at host handles
    refine .of_same ?_ ?_
    · rw [after_bind_of_error ran, host]
    · rw [after_bind_of_error ran, handles]

theorem bind (first : Steps target m s) (parts : List Part)
    (second : ∀ value, Touches parts (f value)) (apart : .host ∉ parts ∧ .handles ∉ parts) :
    Steps target (m >>= f) s := by
  cases ran : m.run s with
  | ok value t =>
    have host : ((f value).after t).host = t.host := second value t .host apart.1
    have handles : ((f value).after t).kernel.handles = t.kernel.handles :=
      second value t .handles apart.2
    rw [Steps, after_of_ok ran] at first
    rwa [Steps, after_bind_of_ok ran, host, handles]
  | error failure t =>
    rw [Steps, after_of_error ran] at first
    rwa [Steps, after_bind_of_error ran]

end Steps

theorem isFilled_of_run (h : requireFreeHandle.run s = .ok () s) :
    s.kernel.handles.isFilled = false := by
  unfold requireFreeHandle at h
  rw [run_get_bind] at h
  split at h
  · cases h
  next room => simpa using room

theorem run_giveHandle {f : OpenFile} {handle : Int16} {next : Handles}
    (given : s.kernel.handles.insert f = some (handle, next)) :
    (giveHandle f).run s =
      .ok handle.toUInt16.toUInt32 { s with kernel := { s.kernel with handles := next } } := by
  unfold giveHandle
  rw [run_get_bind, given]
  rfl

theorem steps_giveHandle {path : HostPath} {f : OpenFile}
    (found : s.host.fileAt path = .ok f.file) : Steps .path (giveHandle f) s := by
  unfold giveHandle
  rw [Steps, after_get_bind]
  cases given : s.kernel.handles.insert f with
  | none => exact .kept
  | some result => exact .opened found given

theorem steps_createDirectory : Steps .path createDirectory s := by
  refine .reads (.argumentPath 2) fun p _ => ?_
  rw [Steps, after_get_bind]
  cases made : s.host.makeDirectory p with
  | error cause => exact .kept
  | ok grown =>
    have same : grown = (s.host.makeEach [p]).2 := by rw [HostTree.makeEach_singleton, made]
    rw [same]
    exact .directories [p]

theorem steps_createFile : Steps .path createFile s := by
  refine .reads (.argumentPath 2) fun p _ => .reads .requireFreeHandle fun _ checked => ?_
  have room := isFilled_of_run checked
  rw [Steps, after_get_bind]
  rcases above : s.host.makeDirectories p.dropLast with ⟨outcome, next⟩
  have same : next = (s.host.makeEach (HostTree.lineage p.dropLast)).2 :=
    (congrArg Prod.snd above).symm
  have above' : FileStep s.host s.kernel.handles .path next s.kernel.handles :=
    same ▸ .directories _
  cases outcome with
  | error cause => exact above'
  | ok _ =>
    dsimp only
    cases created : next.createFile p with
    | error cause => exact above'
    | ok result =>
      obtain ⟨file, grown⟩ := result
      obtain ⟨handle, handles, given⟩ := Handles.exists_insert room ⟨file, p, 0, false, true⟩
      have given' : ({ s with host := grown } : System).kernel.handles.insert
          ⟨file, p, 0, false, true⟩ = some (handle, handles) := given
      have step : FileStep s.host s.kernel.handles .path grown handles :=
        .created (same ▸ created) given
      change FileStep s.host s.kernel.handles .path
        ((giveHandle ⟨file, p, 0, false, true⟩).after { s with host := grown }).host
        ((giveHandle ⟨file, p, 0, false, true⟩).after { s with host := grown }).kernel.handles
      rw [after_of_ok (run_giveHandle given')]
      exact step

theorem steps_openFile : Steps .path openFile s := by
  refine .reads (.argumentPath 2) fun p _ => .reads (.argumentWord 6) fun word _ => ?_
  cases openMode? word with
  | none => exact .of_same rfl rfl
  | some mode =>
    refine .reads .requireFreeHandle fun _ _ => ?_
    rw [Steps, after_get_bind]
    cases found : s.host.fileAt p with
    | error cause => exact .kept
    | ok file => exact steps_giveHandle found

theorem steps_deleteFile : Steps .path deleteFile s := by
  refine .reads (.argumentPath 2) fun p _ => ?_
  rw [Steps, after_get_bind]
  cases removed : s.host.removeName p with
  | error cause => exact .kept
  | ok rest => exact .removed removed

variable {handle : Int16} {found : Except Fault Int16} {fault? : Option HostFault}

def handleTarget : Except Fault Int16 → FileTarget
  | .ok handle => .handle handle
  | .error _ => .nothing

theorem handleTarget_ne_path (found : Except Fault Int16) : handleTarget found ≠ .path := by
  cases found <;> exact FileTarget.noConfusion

theorem handleTarget_of_run (ran : (argumentHandle offset).run s = .ok handle t) :
    handleTarget (s.arguments.signedWord offset) = .handle handle := by
  have opened : (argumentHandle offset).run s =
      (orStop (s.arguments.signedWord offset)).run s := rfl
  rw [opened] at ran
  cases found : s.arguments.signedWord offset with
  | ok value =>
    rw [found] at ran
    cases ran
    rfl
  | error fault =>
    rw [found] at ran
    cases ran

theorem Steps.argumentHandle {f : Int16 → Service β}
    (rest : ∀ handle, Steps (.handle handle) (f handle) s) :
    Steps (handleTarget (s.arguments.signedWord offset))
      (Service.argumentHandle offset >>= f) s := by
  refine .reads (.argumentHandle offset) fun handle ran => ?_
  rw [handleTarget_of_run ran]
  exact rest handle

theorem steps_fetch (handle : Int16) (count : Nat) :
    Steps (.handle handle) (fetch handle count fault?) s := by
  unfold fetch
  rw [Steps, after_get_bind]
  cases given : s.kernel.handles.get? handle with
  | none => exact .kept
  | some target =>
    cases target with
    | reserved | consoleOutput => exact .kept
    | consoleInput =>
      exact Steps.of_touches [.console] (Touches.exchange (by decide) _) (by decide)
    | file f =>
      have opened := Handles.opened_of_get? given
      dsimp only
      rcases transferred : s.host.readFrom f count fault? with ⟨transfer, moved⟩
      cases transfer with
      | ok data =>
        obtain ⟨_, rfl⟩ := HostTree.read_eq_ok (HostTree.read_of_readFrom transferred)
        exact .moved _ opened
      | error cause =>
        rcases HostTree.eq_of_readFrom_error transferred with rfl | ⟨_, _, n, _, rfl⟩
        · exact .moved _ opened
        · exact .moved _ opened

theorem steps_send (handle : Int16) (data : List UInt8) :
    Steps (.handle handle) (send handle data fault?) s := by
  unfold send
  rw [Steps, after_get_bind]
  cases given : s.kernel.handles.get? handle with
  | none => exact .kept
  | some target =>
    cases target with
    | reserved | consoleInput => exact .kept
    | consoleOutput =>
      exact Steps.of_touches [.console] (Touches.print (by decide) data) (by decide)
    | file f =>
      have opened := Handles.opened_of_get? given
      dsimp only
      rcases transferred : s.host.writeTo f data fault? with ⟨transfer, moved, host⟩
      cases transfer with
      | ok done => exact .written opened (HostTree.write_of_writeTo transferred)
      | error cause =>
        rcases HostTree.eq_of_writeTo_error transferred with ⟨rfl, rfl⟩ | ⟨_, _, part, _, written⟩
        · exact .moved _ opened
        · exact .written opened written

theorem steps_readFile :
    Steps (handleTarget (s.arguments.signedWord 2)) (readFile fault?) s := by
  refine .argumentHandle fun handle => .reads (.argumentLong 4) fun count _ => ?_
  refine .reads (.argumentLong 8) fun buffer _ => .reads (.requireWritable _ _) fun _ _ => ?_
  refine (steps_fetch handle _).bind [.memory] (fun data => ?_) (by decide)
  exact .bind (.storeBuffer (by decide) _ _) fun _ => .pure _

theorem steps_writeFile :
    Steps (handleTarget (s.arguments.signedWord 2)) (writeFile fault?) s := by
  refine .argumentHandle fun handle => .reads (.argumentLong 4) fun count _ => ?_
  refine .reads (.argumentLong 8) fun buffer _ => ?_
  rw [Steps, after_get_bind]
  split
  · exact .kept
  · refine Steps.skip [.memory] (.loadBuffer (by decide) _ _) (by decide) fun data t => ?_
    exact (steps_send handle data).bind [] (fun _ => .pure _) (by decide)

theorem steps_seekFile : Steps (handleTarget (s.arguments.signedWord 6)) seekFile s := by
  refine .reads (.argumentLong 2) fun offset _ => .argumentHandle fun handle => ?_
  refine .reads (.argumentWord 8) fun word _ => ?_
  cases seekOrigin? word offset.toInt32 with
  | none => exact .of_same rfl rfl
  | some origin =>
    dsimp only
    rw [Steps, after_get_bind]
    cases given : s.kernel.handles.get? handle with
    | none => exact .kept
    | some target =>
      cases target with
      | reserved | consoleInput | consoleOutput => exact .kept
      | file f =>
        dsimp only
        cases sought : s.host.seek f origin offset.toInt32.toInt with
        | error cause => exact .kept
        | ok moved =>
          obtain ⟨position, _, rfl⟩ := HostTree.seek_eq_ok sought
          have step : FileStep s.host s.kernel.handles (.handle handle) s.host
              (s.kernel.handles.replace handle { f with position }) :=
            .moved position (Handles.opened_of_get? given)
          dsimp only
          split <;> exact step

theorem steps_closeFile : Steps (handleTarget (s.arguments.signedWord 2)) closeFile s := by
  refine .argumentHandle fun handle => ?_
  rw [Steps, after_get_bind]
  dsimp only
  split
  · exact .closed
  · exact .kept

end Service

namespace Routine

open Service

/-- What a call names: a file that is open or one that has a name. -/
def target (called : Routine) (s : System) : FileTarget :=
  match called with
  | readFile | writeFile | closeFile => handleTarget (s.arguments.signedWord 2)
  | seekFile => handleTarget (s.arguments.signedWord 6)
  | createDirectory | createFile | openFile | deleteFile => .path
  | _ => .nothing

theorem steps_run (called : Routine) (s : System) : Steps (called.target s) called.run s := by
  by_cases apart : .host ∉ called.parts ∧ .handles ∉ called.parts
  · exact .of_touches called.parts called.run_touches apart
  cases called with
  | createDirectory => exact steps_createDirectory.map _
  | createFile => exact steps_createFile.map _
  | openFile => exact steps_openFile.map _
  | closeFile => exact steps_closeFile.map _
  | readFile => exact steps_readFile.map _
  | writeFile => exact steps_writeFile.map _
  | deleteFile => exact steps_deleteFile.map _
  | seekFile => exact steps_seekFile.map _
  | _ => exact absurd (by decide) apart

end Routine

end AtariTos

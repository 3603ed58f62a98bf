import AtariTos.Proofs.FileSteps

namespace AtariTos

open HostTree (ChangedBelow)

namespace System

variable {s t : System} {root : HostPath} {host next : HostTree}

/-- What a system keeps while calls change the host's files below a root only. -/
structure Bounded (root : HostPath) (host : HostTree) (s : System) : Prop where
  changed : ChangedBelow root host s.host
  isOpen : ∀ id, s.kernel.handles.IsOpen id → s.host.OnlyBelow root id
  drive : s.kernel.drive.root = root
  straight : HostPath.IsStraight root
  plain : ∀ name ∈ s.kernel.drive.directory, name.IsPlain

namespace Bounded

theorem of_same (h : s.Bounded root host) (sameHost : t.host = s.host)
    (sameHandles : t.kernel.handles = s.kernel.handles)
    (sameDrive : t.kernel.drive = s.kernel.drive) : t.Bounded root host := by
  obtain ⟨changed, isOpen, drive, straight, plain⟩ := h
  refine ⟨sameHost ▸ changed, ?_, sameDrive ▸ drive, straight, sameDrive ▸ plain⟩
  rw [sameHost, sameHandles]
  exact isOpen

theorem withHost (h : s.Bounded root host) (below : ChangedBelow root s.host next) :
    ({ s with host := next } : System).Bounded root host :=
  ⟨h.changed.trans below, fun id isOpen => below.onlyBelow (h.isOpen id isOpen), h.drive,
    h.straight, h.plain⟩

theorem withHandles (h : s.Bounded root host) {handles : Handles}
    (isOpen : ∀ id, handles.IsOpen id → s.host.OnlyBelow root id) :
    ({ s with kernel := { s.kernel with handles } } : System).Bounded root host :=
  ⟨h.changed, isOpen, h.drive, h.straight, h.plain⟩

theorem of_step (h : s.Bounded root host) {target : FileTarget}
    (step : FileStep s.host s.kernel.handles target t.host t.kernel.handles)
    (notPath : target ≠ .path) (sameDrive : t.kernel.drive = s.kernel.drive) :
    t.Bounded root host := by
  have bounded : ({ s with
      host := t.host
      kernel := { s.kernel with handles := t.kernel.handles } } : System).Bounded root host := by
    generalize t.host = next, t.kernel.handles = handles at step
    cases step with
    | kept => exact h
    | directories | created | opened | removed => exact absurd rfl notPath
    | @moved handle f position given =>
      have same : ({ f with position } : OpenFile).file = f.file := rfl
      refine h.withHandles fun id isOpen => h.isOpen id ?_
      exact Handles.isOpen_replace (Handles.get?_of_opened given) same isOpen
    | @written handle f moved data next given sent =>
      have only := h.isOpen f.file (Handles.isOpen_of_get? (Handles.get?_of_opened given))
      obtain ⟨same, below⟩ := HostTree.write_below h.changed.isTree only sent
      refine (h.withHost below).withHandles fun id isOpen => (h.withHost below).isOpen id ?_
      exact Handles.isOpen_replace (Handles.get?_of_opened given) same isOpen
    | closed => exact h.withHandles fun id isOpen => h.isOpen id (Handles.isOpen_close isOpen)
  exact bounded.of_same rfl rfl sameDrive

end Bounded

end System

namespace Service

variable {α β : Type} {s : System} {root p : HostPath} {host : HostTree} {offset : UInt32}
  {handle : Int16} {m : Service α} {f : α → Service β}

theorem exists_translate (h : (argumentPath offset).run s = .ok p s) :
    ∃ guest, s.kernel.drive.translate s.host guest = .ok p := by
  obtain ⟨addr, _, h⟩ := Touches.exists_run (.argumentLong offset) h
  obtain ⟨guest, _, h⟩ := Touches.exists_run (.pathAt addr) h
  rw [run_get_bind] at h
  cases found : s.kernel.drive.translate s.host guest with
  | ok path =>
    rw [found] at h
    cases h
    exact ⟨guest, found⟩
  | error cause =>
    rw [found] at h
    cases h

theorem exists_names (h : s.Bounded root host) (ran : (argumentPath offset).run s = .ok p s) :
    ∃ names, p = root ++ names ∧ HostPath.IsStraight names := by
  obtain ⟨guest, found⟩ := exists_translate ran
  obtain ⟨names, spelled, straight, _⟩ := Drive.translate_eq_ok h.plain found
  exact ⟨names, h.drive ▸ spelled, straight⟩

theorem enclosed_of_run (h : s.Bounded root host) (ran : (argumentPath offset).run s = .ok p s) :
    HostPath.IsStraight p ∧ s.kernel.drive.encloses s.host p = true := by
  obtain ⟨guest, found⟩ := exists_translate ran
  obtain ⟨names, rfl, straight, enclosed⟩ := Drive.translate_eq_ok h.plain found
  exact ⟨HostPath.isStraight_append.mpr ⟨h.drive ▸ h.straight, straight⟩, enclosed⟩

/-- A service keeps a system bounded. -/
def Bounds (root : HostPath) (host : HostTree) (m : Service α) : Prop :=
  Always (fun s t => s.Bounded root host → t.Bounded root host) m

namespace Bounds

theorem of_touches (parts : List Part) (h : Touches parts m)
    (apart : .host ∉ parts ∧ .handles ∉ parts ∧ .drive ∉ parts) : Bounds root host m :=
  fun s bounded =>
    bounded.of_same (h s .host apart.1) (h s .handles apart.2.1) (h s .drive apart.2.2)

theorem map (g : α → β) (h : Bounds root host m) : Bounds root host (g <$> m) := by
  intro s
  rw [after_map]
  exact h s

theorem reads_at (h : Touches [] m) (next : ∀ value, ((f value).after s).Bounded root host)
    (bounded : s.Bounded root host) : ((m >>= f).after s).Bounded root host := by
  rcases h.after_bind f s with same | ⟨value, _, same⟩
  · rw [same]
    exact bounded
  · rw [same]
    exact next value

theorem reads (h : Touches [] m) (next : ∀ value s, m.run s = .ok value s → s.Bounded root host →
    ((f value).after s).Bounded root host) : Bounds root host (m >>= f) := by
  intro s bounded
  rcases h.after_bind f s with same | ⟨value, ran, same⟩
  · rw [same]
    exact bounded
  · rw [same]
    exact next value s ran bounded

end Bounds

theorem bounded_giveHandle (h : s.Bounded root host) {f : OpenFile}
    (only : s.host.OnlyBelow root f.file) : ((giveHandle f).after s).Bounded root host := by
  unfold giveHandle
  rw [after_get_bind]
  cases given : s.kernel.handles.insert f with
  | none => exact h
  | some result =>
    refine h.withHandles fun id isOpen => ?_
    rcases Handles.isOpen_insert given isOpen with before | rfl
    · exact h.isOpen id before
    · exact only

theorem bounds_createDirectory : Bounds root host createDirectory := by
  refine .reads (.argumentPath 2) fun p s ran h => ?_
  obtain ⟨straight, enclosed⟩ := enclosed_of_run h ran
  rw [after_get_bind]
  cases made : s.host.makeDirectory p with
  | error cause => exact h
  | ok grown =>
    refine h.withHost ?_
    have below := Drive.makeDirectory_below h.changed.isTree straight enclosed made
    exact h.drive ▸ below

theorem bounds_setDirectory : Bounds root host setDirectory := by
  refine .reads (.argumentLong 2) fun addr s _ h => ?_
  refine Bounds.reads (.pathAt addr) (fun guest s _ h => ?_) s h
  rw [after_get_bind]
  cases changed : s.kernel.drive.changeDirectory s.host guest with
  | error cause => exact h
  | ok drive =>
    unfold Drive.changeDirectory at changed
    split at changed
    · cases changed
    next names spelled =>
    split at changed
    · cases changed
    split at changed
    · cases changed
    cases changed
    exact ⟨h.changed, h.isOpen, h.drive, h.straight, Drive.plain_names h.plain spelled⟩

theorem bounds_openFile : Bounds root host openFile := by
  refine .reads (.argumentPath 2) fun p s ran h => ?_
  obtain ⟨_, enclosed⟩ := enclosed_of_run h ran
  refine Bounds.reads_at (.argumentWord 6) (fun word => ?_) h
  cases openMode? word with
  | none => exact h
  | some mode =>
    refine Bounds.reads_at .requireFreeHandle (fun _ => ?_) h
    rw [after_get_bind]
    cases opened : s.host.fileAt p with
    | error cause => exact h
    | ok file =>
      refine bounded_giveHandle h ?_
      obtain ⟨d, reached⟩ := HostTree.fileAt_eq_ok opened
      have inside := Drive.prefix_of_found enclosed reached
      have good := h.changed.isTree
      exact h.drive ▸ good.onlyBelow (good.holds_of_locate reached) inside

theorem run_requireFreeHandle (room : s.kernel.handles.isFilled = false) :
    requireFreeHandle.run s = .ok () s := by
  unfold requireFreeHandle
  rw [run_get_bind, room]
  rfl

theorem host_giveHandle (f : OpenFile) (s : System) : ((giveHandle f).after s).host = s.host := by
  have touches : Touches [.handles] (giveHandle f) := .giveHandle (by decide) f
  exact touches s .host (by decide)

theorem host_createFile (good : s.host.IsTree) (straight : HostPath.IsStraight p)
    (ran : (argumentPath 2).run s = .ok p s) (room : s.kernel.handles.isFilled = false)
    {d : HostPath} {n : String} (reached : s.host.locate p true = .ok (.absent d n)) :
    ∃ id, (createFile.after s).host.at? (d ++ [n]) = some (.file id) := by
  obtain ⟨id, grown, created, there⟩ := HostTree.createFile_of_absent reached
  refine ⟨id, ?_⟩
  unfold createFile
  rw [after_bind_of_ok ran, after_bind_of_ok (run_requireFreeHandle room), after_get_bind,
    good.makeDirectories_of_absent straight reached]
  dsimp only
  rw [created]
  change ((giveHandle _).after { s with host := grown }).host.at? _ = _
  rw [host_giveHandle]
  exact there

theorem host_deleteFile (ran : (argumentPath 2).run s = .ok p s) {d : HostPath} {target : String}
    (reached : s.host.locate p false = .ok (.found d (.link target))) :
    (deleteFile.after s).host = s.host.erase d := by
  unfold deleteFile
  rw [after_bind_of_ok ran, after_get_bind, HostTree.removeName, reached]
  rfl

theorem bounded_createFile (h : s.Bounded root host)
    (inside : ∀ p d n, (argumentPath 2).run s = .ok p s → s.kernel.handles.isFilled = false →
      s.host.locate p true = .ok (.absent d n) → s.kernel.drive.root <+: d ++ [n]) :
    (createFile.after s).Bounded root host := by
  unfold createFile
  rcases Touches.after_bind (.argumentPath 2) _ s with same | ⟨p, ran, same⟩
  · rw [same]
    exact h
  obtain ⟨straight, enclosed⟩ := enclosed_of_run h ran
  rw [same]
  rcases Touches.after_bind .requireFreeHandle _ s with same | ⟨_, ran', same⟩
  · rw [same]
    exact h
  have room := isFilled_of_run ran'
  rw [same, after_get_bind]
  rcases made : s.host.makeDirectories p.dropLast with ⟨outcome, next⟩
  have good := h.changed.isTree
  have changed : ChangedBelow root s.host next :=
    h.drive ▸ Drive.changedBelow_above good straight enclosed made
  have bounded := h.withHost changed
  cases outcome with
  | error cause => exact bounded
  | ok _ =>
    dsimp only
    cases created : next.createFile p with
    | error cause => exact bounded
    | ok result =>
      obtain ⟨grown, only⟩ := Drive.createFile_below good straight enclosed
        (fun d n => inside p d n ran room) made created
      rw [h.drive] at grown only
      exact bounded_giveHandle (bounded.withHost grown) only

theorem bounded_deleteFile (h : s.Bounded root host)
    (inside : ∀ p d target, (argumentPath 2).run s = .ok p s →
      s.host.locate p false = .ok (.found d (.link target)) → s.kernel.drive.root <+: d) :
    (deleteFile.after s).Bounded root host := by
  unfold deleteFile
  rcases Touches.after_bind (.argumentPath 2) _ s with same | ⟨p, ran, same⟩
  · rw [same]
    exact h
  obtain ⟨_, enclosed⟩ := enclosed_of_run h ran
  rw [same, after_get_bind]
  cases removed : s.host.removeName p with
  | error cause => exact h
  | ok rest =>
    have below := Drive.removeName_below h.changed.isTree enclosed
      (fun d target => inside p d target ran) removed
    exact h.withHost (h.drive ▸ below)

end Service

namespace Routine

open Service

variable {s : System} {root : HostPath} {host : HostTree} {called : Routine}

/-- A call reaches out of the drive over a link: it creates a file where its path leads to a name
that is free outside the root, or it removes a link that stands there. -/
def Escapes (called : Routine) (s : System) : Prop :=
  match called with
  | .createFile =>
    s.kernel.handles.isFilled = false ∧ ∃ p d n, (argumentPath 2).run s = .ok p s ∧
      s.host.locate p true = .ok (.absent d n) ∧ ¬s.kernel.drive.root <+: d ++ [n]
  | .deleteFile =>
    ∃ p d target, (argumentPath 2).run s = .ok p s ∧
      s.host.locate p false = .ok (.found d (.link target)) ∧ ¬s.kernel.drive.root <+: d
  | _ => False

theorem not_escapes (h : s.Bounded root host) (there : host.HasDirectory root)
    (noLinks : ∀ p target, host.at? p = some (.link target) → ¬root <+: p) : ¬called.Escapes s := by
  have below : ∀ p follow place, (argumentPath 2).run s = .ok p s →
      s.host.locate p follow = .ok place → place.Below root := by
    intro p follow place ran reached
    obtain ⟨names, rfl, straight⟩ := exists_names h ran
    exact h.changed.isTree.below_of_no_links (h.changed.directories root there)
      (fun q target link => noLinks q target (h.changed.links q target link)) straight reached
  intro escapes
  cases called with
  | createFile =>
    obtain ⟨_, p, d, n, ran, reached, outside⟩ := escapes
    exact outside (h.drive ▸ below p true _ ran reached)
  | deleteFile =>
    obtain ⟨p, d, target, ran, reached, outside⟩ := escapes
    exact outside (h.drive ▸ below p false _ ran reached)
  | _ => exact escapes

theorem bounded_run (h : s.Bounded root host) (stays : ¬called.Escapes s) :
    (called.run.after s).Bounded root host := by
  by_cases apart : .host ∉ called.parts ∧ .handles ∉ called.parts ∧ .drive ∉ called.parts
  · exact Bounds.of_touches called.parts called.run_touches apart s h
  cases called with
  | createDirectory => exact bounds_createDirectory.map _ s h
  | setDirectory => exact bounds_setDirectory.map _ s h
  | openFile => exact bounds_openFile.map _ s h
  | closeFile | readFile | writeFile | seekFile =>
    exact h.of_step (steps_run _ s) (handleTarget_ne_path _) (run_touches _ s .drive (by decide))
  | createFile =>
    rw [run, after_map]
    refine bounded_createFile h fun p d n ran room reached => ?_
    by_contra outside
    exact stays ⟨room, p, d, n, ran, reached, outside⟩
  | deleteFile =>
    rw [run, after_map]
    refine bounded_deleteFile h fun p d target ran reached => ?_
    by_contra outside
    exact stays ⟨p, d, target, ran, reached, outside⟩
  | _ => exact absurd (by decide) apart

/-- What such a call does shows outside the root. -/
theorem exists_ne_of_escapes (h : s.Bounded root host) (escapes : called.Escapes s) :
    ∃ q, ¬root <+: q ∧ (called.run.after s).host.at? q ≠ s.host.at? q := by
  have good := h.changed.isTree
  cases called with
  | createFile =>
    obtain ⟨room, p, d, n, ran, reached, outside⟩ := escapes
    obtain ⟨straight, _⟩ := enclosed_of_run h ran
    obtain ⟨_, _, free⟩ := good.holds_of_locate reached
    obtain ⟨id, created⟩ := host_createFile good straight ran room reached
    refine ⟨d ++ [n], h.drive ▸ outside, ?_⟩
    rw [run, after_map, created, free]
    exact Option.some_ne_none _
  | deleteFile =>
    obtain ⟨p, d, target, ran, reached, outside⟩ := escapes
    have there : s.host.at? d = some (.link target) := good.holds_of_locate reached
    have named : d ≠ [] := by
      rintro rfl
      cases s.host.at?_nil.symm.trans there
    refine ⟨d, h.drive ▸ outside, ?_⟩
    rw [run, after_map, host_deleteFile ran reached, HostTree.at?_erase_self named, there]
    exact (Option.some_ne_none _).symm
  | _ => exact absurd escapes id

end Routine

end AtariTos

import AtariTos.Proofs.CallConfinement
import AtariTos.Proofs.NewDirectories
import AtariTos.Proofs.SeekOutcomes

namespace AtariTos

namespace HostTree

variable {tree : HostTree} {front p d : HostPath} {n m : String} {back : List String}

/-- A file and the directories on the way to it can be made. -/
def CanCreate (tree : HostTree) (p : HostPath) : Prop :=
  ∃ next id grown, tree.makeDirectories p.dropLast = (.ok (), next) ∧
    next.createFile p = .ok (id, grown)

/-- A first directory on the way to a file can be made, but not all that follows it. -/
def Strands (tree : HostTree) (p : HostPath) : Prop :=
  ∃ front n back d, p = front ++ n :: back ∧ back ≠ [] ∧
    tree.locate (front ++ [n]) false = .ok (.absent d n) ∧ ∃ m ∈ back, ¬HostPath.IsName m

/-- Behind a free name it is the names alone that decide, and something is made in any case. -/
theorem IsTree.canCreate_iff_of_absent_front (good : tree.IsTree)
    (straight : HostPath.IsStraight (front ++ n :: (back ++ [m])))
    (free : tree.locate (front ++ [n]) false = .ok (.absent d n)) :
    (tree.CanCreate (front ++ n :: (back ++ [m])) ↔ ∀ k ∈ back ++ [m], HostPath.IsName k) ∧
      (tree.makeDirectories (front ++ n :: (back ++ [m])).dropLast).2 ≠ tree := by
  have above : front ++ n :: (back ++ [m]) = (front ++ n :: back) ++ [m] := by simp
  rw [above] at straight ⊢
  obtain ⟨straight, dot, up⟩ := HostPath.isStraight_concat.mp straight
  rcases made : tree.makeDirectories (front ++ n :: back) with ⟨outcome, next⟩
  obtain ⟨there, taken, vacant⟩ := good.makeDirectories_of_absent_front straight free made
  have good' := (good.makeDirectories made).1
  rw [List.dropLast_concat, made]
  refine ⟨⟨?_, fun all => ?_⟩, ?_⟩
  · rintro ⟨next', id, grown, made', created⟩
    rw [List.dropLast_concat] at made'
    obtain ⟨rfl, rfl⟩ := Prod.mk.inj (made.symm.trans made')
    refine List.forall_mem_append.mpr ⟨taken.mp rfl, List.forall_mem_singleton.mpr ?_⟩
    by_contra illegal
    obtain ⟨cause, refused⟩ := ((vacant rfl).createFile good' dot up).2 illegal
    cases created.symm.trans refused
  · obtain ⟨names, name⟩ := List.forall_mem_append.mp all
    obtain rfl := taken.mpr names
    obtain ⟨id, grown, created⟩ :=
      ((vacant rfl).createFile good' dot up).1 (List.forall_mem_singleton.mp name)
    exact ⟨next, id, grown, by rwa [List.dropLast_concat], created⟩
  · rintro rfl
    obtain ⟨_, there⟩ := there
    cases (good.holds_of_locate free).2.2.symm.trans there

/-- Where no file can be created, nothing is made on the way to it unless it strands. -/
theorem IsTree.eq_or_strands (good : tree.IsTree) (straight : HostPath.IsStraight p)
    (cannot : ¬tree.CanCreate p) :
    (tree.makeDirectories p.dropLast).2 = tree ∨ tree.Strands p := by
  cases p using List.reverseRecOn with
  | nil => exact .inl rfl
  | append_singleton p m =>
    by_cases breaks : ∃ back, tree.Breaks p back
    · obtain ⟨back, front, n, d, rfl, free⟩ := breaks
      have below : (front ++ n :: back) ++ [m] = front ++ n :: (back ++ [m]) := by simp
      rw [below] at straight cannot ⊢
      refine .inr ⟨front, n, back ++ [m], d, rfl, concat_ne_nil back m, free, ?_⟩
      by_contra none
      push Not at none
      exact cannot ((good.canCreate_iff_of_absent_front straight free).1.mpr none)
    · rw [List.dropLast_concat]
      exact .inl (good.makeDirectories_of_not_breaks (HostPath.isStraight_concat.mp straight).1
        (not_exists.mp breaks) rfl)

theorem IsTree.ne_of_strands (good : tree.IsTree) (straight : HostPath.IsStraight p)
    (strands : tree.Strands p) :
    ¬tree.CanCreate p ∧ (tree.makeDirectories p.dropLast).2 ≠ tree := by
  obtain ⟨front, n, back, d, rfl, longer, free, k, member, illegal⟩ := strands
  obtain ⟨back, m, rfl⟩ := (List.eq_nil_or_concat' back).resolve_left longer
  obtain ⟨names, new⟩ := good.canCreate_iff_of_absent_front straight free
  exact ⟨fun can => illegal (names.mp can k member), new⟩

theorem not_strands_of_names (names : ∀ m ∈ p, HostPath.IsName m) : ¬tree.Strands p := by
  rintro ⟨front, n, back, d, rfl, _, _, m, member, illegal⟩
  exact illegal (names m (List.mem_append_right front (List.mem_cons_of_mem n member)))

end HostTree

theorem Handles.register_nonneg (handle : Int16) : 0 ≤ handle.toUInt16.toUInt32.toInt32 := by
  have small := handle.toUInt16.toNat_lt
  have same : handle.toUInt16.toUInt32.toNat = handle.toUInt16.toNat :=
    UInt16.toNat_toUInt32 _
  have low : handle.toUInt16.toUInt32.toNat < 2 ^ 31 := by omega
  have zero : (0 : Int32).toInt = 0 := rfl
  rw [Int32.le_iff_toInt_le, toInt_toInt32, if_pos low, zero]
  exact Int.natCast_nonneg _

namespace Service

variable {s t : System} {addr : UInt32} {p : HostPath}

theorem run_argumentPath_cases (fetched : s.arguments.long 2 = .ok addr) :
    (∃ p, (argumentPath 2).run s = .ok p s) ∨
      ∃ status, status ≠ .success ∧ (argumentPath 2).run s = .error (.status status) s := by
  rw [argumentPath, run_argumentLong_bind, fetched]
  dsimp only
  have string : (stringAt addr pathMax).run s =
      (orRangeError (s.memory.peekString addr pathMax s.registers.privilege)).run s := rfl
  rw [pathAt, bind_assoc]
  cases found : s.memory.peekString addr pathMax s.registers.privilege with
  | error fault =>
    rw [found] at string
    exact .inr ⟨.rangeError, by decide, run_bind_of_error string⟩
  | ok guest =>
    rw [found] at string
    rw [run_bind_of_ok string]
    cases guest with
    | none => exact .inr ⟨.pathOverflow, by decide, rfl⟩
    | some guest =>
      dsimp only
      rw [pure_bind, run_get_bind]
      cases s.kernel.drive.translate s.host guest with
      | ok p => exact .inl ⟨p, rfl⟩
      | error cause =>
        refine .inr ⟨cause.status, ?_, rfl⟩
        cases cause <;> exact fun h => by cases h

/-- How the creation of a file ends: with a refusal, with the directories on the way to a file that
cannot be created, or with the file and a handle for it. -/
inductive Creation (s : System) : Except Status UInt32 → System → Prop where
  | refused {status : Status} (failed : status ≠ .success)
      (unasked : ∀ p, (argumentPath 2).run s = .ok p s → s.kernel.handles.isFilled = true) :
      Creation s (.error status) s
  | stuck {p : HostPath} (asked : (argumentPath 2).run s = .ok p s)
      (room : s.kernel.handles.isFilled = false) (cannot : ¬s.host.CanCreate p) :
      Creation s (.error .accessDenied)
        { s with host := (s.host.makeDirectories p.dropLast).2 }
  | created {p : HostPath} {next grown : HostTree} {id : Nat} {handle : Int16} {handles : Handles}
      (asked : (argumentPath 2).run s = .ok p s) (room : s.kernel.handles.isFilled = false)
      (made : s.host.makeDirectories p.dropLast = (.ok (), next))
      (new : next.createFile p = .ok (id, grown))
      (given : s.kernel.handles.insert
        { file := id, path := p, readable := false, writable := true } = some (handle, handles)) :
      Creation s (.ok handle.toUInt16.toUInt32)
        { s with host := grown, kernel := { s.kernel with handles } }

def ending (outcome : Except Status UInt32) (t : System) : EStateM.Result Failure System UInt32 :=
  match outcome with
  | .ok value => .ok value t
  | .error status => .error (.status status) t

theorem run_createFile (asked : (argumentPath 2).run s = .ok p s)
    (room : s.kernel.handles.isFilled = false) :
    createFile.run s =
      match s.host.makeDirectories p.dropLast with
      | (.error _, host) => .error (.status .accessDenied) { s with host }
      | (.ok _, host) =>
        match host.createFile p with
        | .error _ => .error (.status .accessDenied) { s with host }
        | .ok (file, host) =>
          (giveHandle { file, path := p, readable := false, writable := true }).run
            { s with host } := by
  unfold createFile
  rw [run_bind_of_ok asked, run_bind_of_ok (run_requireFreeHandle room), run_get_bind]
  rcases s.host.makeDirectories p.dropLast with ⟨outcome, host⟩
  cases outcome with
  | error cause => rfl
  | ok _ =>
    change (match host.createFile p with
      | .error _ => reject .accessDenied
      | .ok (file, grown) => do
        setHost grown
        giveHandle { file, path := p, readable := false, writable := true } :
          Service UInt32).run { s with host } = _
    dsimp only
    cases host.createFile p <;> rfl

theorem exists_creation (fetched : s.arguments.long 2 = .ok addr) :
    ∃ outcome t, Creation s outcome t ∧ createFile.run s = ending outcome t := by
  rcases run_argumentPath_cases fetched with ⟨p, asked⟩ | ⟨status, failed, ran⟩
  · cases room : s.kernel.handles.isFilled with
    | true =>
      have denied : createFile.run s = .error (.status .noMoreHandles) s := by
        rw [createFile, run_bind_of_ok asked, requireFreeHandle]
        exact run_bind_of_error (by rw [run_get_bind, room]; rfl)
      exact ⟨_, _, .refused (by decide) fun _ _ => room, denied⟩
    | false =>
      have ran := run_createFile asked room
      rcases made : s.host.makeDirectories p.dropLast with ⟨outcome, next⟩
      have stuck := Creation.stuck asked room
      rw [made] at ran stuck
      cases outcome with
      | error cause =>
        refine ⟨_, _, stuck fun can => ?_, ran⟩
        obtain ⟨_, _, _, made', _⟩ := can
        cases made.symm.trans made'
      | ok _ =>
        dsimp only at ran
        cases new : next.createFile p with
        | error cause =>
          rw [new] at ran
          refine ⟨_, _, stuck fun can => ?_, ran⟩
          obtain ⟨_, _, _, made', created⟩ := can
          cases made.symm.trans made'
          cases new.symm.trans created
        | ok result =>
          obtain ⟨id, grown⟩ := result
          obtain ⟨handle, handles, given⟩ := Handles.exists_insert room
            { file := id, path := p, readable := false, writable := true }
          have handed := run_giveHandle (s := { s with host := grown }) given
          rw [new] at ran
          exact ⟨_, _, .created asked room made new given, ran.trans handed⟩
  · refine ⟨_, _, .refused failed fun p asked => ?_, run_bind_of_error ran⟩
    cases asked.symm.trans ran

end Service

namespace System

variable {s : System} {next grown : HostTree} {p : HostPath} {f : OpenFile} {handle : Int16}
  {handles : Handles}

/-- A handle that stood for nothing stands for an empty file from now on, at its start, and the path
leads to that file. Everything that was there is still there, and no other file has changed. -/
structure Creates (s : System) (path : HostPath) (handle : Int16) (f : OpenFile) (t : System) :
    Prop where
  opened : t.fileView.opened = Function.update s.fileView.opened handle (some f)
  free : 6 ≤ handle ∧ s.fileView.opened handle = none
  start : f.path = path ∧ f.position = 0
  resolved : ∃ d, t.host.locate path true = .ok (.found d (.file f.file))
  empty : t.fileView.bytes f.file = []
  kept : ∀ q e, s.host.at? q = some e → t.host.at? q = some e
  others : ∀ id, id ≠ f.file → t.host.file id = s.host.file id

theorem creates_of_made {outcome : Except HostError Unit} (good : s.host.IsTree)
    (made : s.host.makeDirectories p.dropLast = (outcome, next))
    (new : next.createFile p = .ok (f.file, grown)) (start : f.path = p ∧ f.position = 0)
    (given : s.kernel.handles.insert f = some (handle, handles)) (value : UInt32) :
    s.Creates p handle f (Trap.answer
      { s with host := grown, kernel := { s.kernel with handles } } value) := by
  obtain ⟨good', furnished⟩ := good.makeDirectories made
  obtain ⟨resolved, others⟩ := good'.locate_createFile new
  obtain ⟨free, opened⟩ := Handles.opened_insert given
  refine ⟨opened, ⟨?_, free⟩, start, resolved, ?_, fun q e there => ?_, fun id apart => ?_⟩
  · have here : handles.opened handle = some f := by rw [opened, Function.update_self]
    exact (Handles.first_le_of_opened here).1
  · exact (congrFun (good'.bytes_createFile new) f.file).trans (Function.update_self ..)
  · exact good'.kept_createFile new (furnished.kept q e there)
  · exact (others id apart).trans (congrArg (·.getD id {}) furnished.files)

end System

namespace Service

variable {s : System} {p : HostPath}

theorem straight_of_run (straight : HostPath.IsStraight s.kernel.drive.root)
    (plain : ∀ name ∈ s.kernel.drive.directory, name.IsPlain)
    (ran : (argumentPath 2).run s = .ok p s) : HostPath.IsStraight p := by
  obtain ⟨guest, found⟩ := exists_translate ran
  obtain ⟨names, rfl, straight', _⟩ := Drive.translate_eq_ok plain found
  exact HostPath.isStraight_append.mpr ⟨straight, straight'⟩

theorem run'_of_ok {α : Type} {m : Service α} {value : α} {t : System}
    (ran : m.run s = .ok value t) : m.run' s = some value := by
  delta EStateM.run'
  rw [ran]

def told : Except Status UInt32 → UInt32
  | .ok value => value
  | .error status => status.register

end Service

namespace Session

variable {s t : Session} {vector : UInt8} {addr : UInt32}

open Service (argumentPath)

theorem trap_createFile (asked : Trap.routine s.system vector = .ok .createFile)
    (fetched : s.system.arguments.long 2 = .ok addr) :
    ∃ outcome u, Service.Creation s.system outcome u ∧ s.trap vector =
      (.ok .proceed, { s with system := Trap.answer u (Service.told outcome) }) := by
  obtain ⟨outcome, u, creation, ran⟩ := Service.exists_creation fetched
  refine ⟨outcome, u, creation, ?_⟩
  rw [trap_of_map asked rfl, ran]
  cases outcome <;> rfl

/-- What a program may rely on after it has asked for a file to be created: an answer that is not
negative is a handle for the file, and one that is negative means that the host's files and the
handles are as they were. -/
structure CreatesOrLeaves (s t : Session) : Prop where
  creates : 0 ≤ (t.system.registers.get .answer).toInt32 →
    ∃ path handle f, (argumentPath 2).run s.system = .ok path s.system ∧
      t.system.registers.get .answer = handle.toUInt16.toUInt32 ∧
      s.system.Creates path handle f t.system
  leaves : (t.system.registers.get .answer).toInt32 < 0 →
    t.system.host = s.system.host ∧ t.system.kernel.handles = s.system.kernel.handles

theorem CreatesOrLeaves.iff_of_negative
    (negative : (t.system.registers.get .answer).toInt32 < 0)
    (handles : t.system.kernel.handles = s.system.kernel.handles) :
    s.CreatesOrLeaves t ↔ t.system.host = s.system.host :=
  ⟨fun law => (law.leaves negative).1, fun same =>
    ⟨fun high => absurd negative (Int32.not_lt.mpr high), fun _ => ⟨same, handles⟩⟩⟩

/-- A failure leaves the handles alone and adds directories at most. It adds none unless the path
strands, and then it adds some. -/
theorem createsOrLeaves_of_creation {outcome : Except Status UInt32} {u : System}
    (good : s.system.host.IsTree) (straight : HostPath.IsStraight s.system.kernel.drive.root)
    (plain : ∀ name ∈ s.system.kernel.drive.directory, name.IsPlain)
    (creation : Service.Creation s.system outcome u)
    (reached : t = { s with system := Trap.answer u (Service.told outcome) }) :
    ((t.system.registers.get .answer).toInt32 < 0 →
      t.system.kernel.handles = s.system.kernel.handles ∧
        s.system.host.Furnished t.system.host) ∧
    (s.CreatesOrLeaves t ↔ ∀ path, (argumentPath 2).run s.system = .ok path s.system →
      s.system.kernel.handles.isFilled = false → ¬s.system.host.Strands path) := by
  have answered : t.system.registers.get .answer = Service.told outcome := by
    rw [reached]
    exact Registers.get_set_answer _ _
  subst reached
  cases creation with
  | @refused status failed unasked =>
    have negative : (Service.told (.error status)).toInt32 < 0 := status.register_negative failed
    rw [← answered] at negative
    refine ⟨fun _ => ⟨rfl, .refl _⟩, iff_of_true ?_ fun path asked room => ?_⟩
    · exact (CreatesOrLeaves.iff_of_negative (s := s) negative rfl).mpr rfl
    · cases (unasked path asked).symm.trans room
  | @stuck path asked room cannot =>
    have negative : (Service.told (.error .accessDenied)).toInt32 < 0 := by decide
    rw [← answered] at negative
    have ahead := Service.straight_of_run straight plain asked
    refine ⟨fun _ => ⟨rfl, (good.makeDirectories rfl).2⟩,
      (CreatesOrLeaves.iff_of_negative (s := s) negative rfl).trans ⟨?_, fun whole => ?_⟩⟩
    · intro same other asked' _ strands
      cases asked.symm.trans asked'
      exact (good.ne_of_strands ahead strands).2 same
    · exact (good.eq_or_strands ahead cannot).resolve_right (whole path asked room)
  | @created path next grown id handle handles asked room made new given =>
    have high : 0 ≤ (Service.told (.ok handle.toUInt16.toUInt32)).toInt32 :=
      Handles.register_nonneg handle
    rw [← answered] at high
    have ahead := Service.straight_of_run straight plain asked
    refine ⟨fun negative => absurd negative (Int32.not_lt.mpr high),
      iff_of_true ⟨fun _ => ?_, fun negative => absurd negative (Int32.not_lt.mpr high)⟩ ?_⟩
    · exact ⟨path, handle, _, asked, answered,
        System.creates_of_made good made new ⟨rfl, rfl⟩ given _⟩
    · intro other asked' _ strands
      cases asked.symm.trans asked'
      exact (good.ne_of_strands ahead strands).1 ⟨next, id, grown, made, new⟩

/-- Every call that creates a file comes to an answer, unless its argument cannot be fetched; then
it leaves no trace. An answer that is not negative is a handle for an empty file at the path. After
one that is negative the handles are as they were, and the host has no more than some new
directories. It has such directories exactly if the path is accepted, a handle is free, and the path
leads to a free name and goes on with a name that the host does not take. -/
theorem createsOrLeaves_iff (good : s.system.host.IsTree)
    (straight : HostPath.IsStraight s.system.kernel.drive.root)
    (plain : ∀ name ∈ s.system.kernel.drive.directory, name.IsPlain)
    (asked : Trap.routine s.system vector = .ok .createFile) :
    (∀ fault, s.system.arguments.long 2 = .error fault →
      s.trap vector = (.error ⟨s.system.registers.pc, .fault fault⟩, s)) ∧
    ∀ addr, s.system.arguments.long 2 = .ok addr → ∃ t, s.trap vector = (.ok .proceed, t) ∧
      ((t.system.registers.get .answer).toInt32 < 0 →
        t.system.kernel.handles = s.system.kernel.handles ∧
          s.system.host.Furnished t.system.host) ∧
      (s.CreatesOrLeaves t ↔ ∀ path, (argumentPath 2).run s.system = .ok path s.system →
        s.system.kernel.handles.isFilled = false → ¬s.system.host.Strands path) := by
  constructor
  · intro fault missing
    have stopped : Service.createFile.run s.system = .error (.stop (.fault fault)) s.system := by
      rw [Service.createFile, Service.argumentPath, bind_assoc, Service.run_argumentLong_bind,
        missing]
    rw [trap_of_map asked rfl, stopped]
  · intro addr fetched
    obtain ⟨outcome, u, creation, trapped⟩ := trap_createFile asked fetched
    exact ⟨_, trapped, createsOrLeaves_of_creation good straight plain creation rfl⟩

def askingFor (path : List UInt8) : List Action :=
  [.registers { address := #v[0, 0, 0, 0, 0, 0, 0, 0x904] },
    .write 0x904 ([0, 0x3c, 0, 0, 9, 0x0c, 0, 0] ++ path ++ [0]) .user]

def inNewDirectory : List UInt8 :=
  [0x44, 0x5c, 0x46]

/-- Another one, with a name that is too long for the host: each of its characters takes two bytes
there. -/
def underLongName : List UInt8 :=
  [0x44, 0x5c] ++ List.replicate 128 0xe9

set_option maxRecDepth 10000 in
theorem asks_inNewDirectory :
    Trap.routine (withInstruction.performAll (askingFor inNewDirectory)).system
        Trap.gemdosVector = .ok .createFile ∧
      (withInstruction.performAll (askingFor inNewDirectory)).system.arguments.long 2 =
        .ok 0x90c ∧
      (withInstruction.performAll (askingFor inNewDirectory)).system.kernel.drive =
        { root := [] } ∧
      (argumentPath 2).run' (withInstruction.performAll (askingFor inNewDirectory)).system =
        some ["D", "F"] ∧
      ((withInstruction.performAll (askingFor inNewDirectory)).trap
        Trap.gemdosVector).2.system.registers.get .answer = 6 := by
  rw [withInstruction, loadedAreas, LoadedProgram.areas, LoadedProgram.userArea_eq]
  decide +kernel

set_option maxRecDepth 10000 in
theorem leaves_underLongName :
    (withInstruction.performAll (askingFor underLongName)).system.host.at? ["D"] = none ∧
      ((withInstruction.performAll (askingFor underLongName)).trap Trap.gemdosVector).1 =
        .ok .proceed ∧
      ((withInstruction.performAll (askingFor underLongName)).trap
        Trap.gemdosVector).2.system.registers.get .answer = Status.accessDenied.register ∧
      ((withInstruction.performAll (askingFor underLongName)).trap
        Trap.gemdosVector).2.system.host.at? ["D"] = some (.directory false) := by
  rw [withInstruction, loadedAreas, LoadedProgram.areas, LoadedProgram.userArea_eq]
  decide +kernel

theorem filed_oneInstruction (actions : List Action) :
    (withInstruction.performAll actions).Filed := by
  have created : create {} [] "/" 0x1300 = .ok littleMemory := rfl
  have good : HostTree.IsTree {} := HostTree.isTree_of_entries (fun x h => by cases h)
    (fun x h => by cases h) (fun x h => by cases h)
  have filed : littleMemory.Filed := filed_create good (fun _ => Content.isClear_empty) created
  rw [← performAll_oneInstruction]
  exact filed_performAll filed _

theorem createsOrLeaves_iff_inNewDirectory :
    ∃ t handle f, (withInstruction.performAll (askingFor inNewDirectory)).trap
        Trap.gemdosVector = (.ok .proceed, t) ∧
      (withInstruction.performAll (askingFor inNewDirectory)).system.Creates ["D", "F"] handle f
        t.system := by
  obtain ⟨asked, fetched, drive, spelled, answered⟩ := asks_inNewDirectory
  have good := (filed_oneInstruction (askingFor inNewDirectory)).isTree
  obtain ⟨t, trapped, _, law⟩ := (createsOrLeaves_iff good (drive ▸ List.forall_mem_nil _)
    (drive ▸ List.forall_mem_nil _) asked).2 _ fetched
  have found : ∀ path, (argumentPath 2).run
      (withInstruction.performAll (askingFor inNewDirectory)).system =
        .ok path (withInstruction.performAll (askingFor inNewDirectory)).system →
      path = ["D", "F"] := by
    intro path ran
    exact Option.some.inj ((Service.run'_of_ok ran).symm.trans spelled)
  have names : ∀ m ∈ ["D", "F"], HostPath.IsName m := by
    unfold HostPath.IsName
    decide
  have high : 0 ≤ (t.system.registers.get .answer).toInt32 := by
    rw [trapped] at answered
    rw [answered]
    decide
  have whole := law.mpr fun path ran _ => found path ran ▸ HostTree.not_strands_of_names names
  obtain ⟨path, handle, f, ran, _, creates⟩ := whole.creates high
  obtain rfl := found path ran
  exact ⟨t, handle, f, trapped, creates⟩

/-- The call fails, and the directory stays. -/
theorem not_createsOrLeaves_underLongName :
    ∃ t, (littleMemory.performAll (.load oneInstruction [] :: askingFor underLongName)).trap
        Trap.gemdosVector = (.ok .proceed, t) ∧
      t.system.registers.get .answer = Status.accessDenied.register ∧
      (littleMemory.performAll
        (.load oneInstruction [] :: askingFor underLongName)).system.host.at? ["D"] = none ∧
      t.system.host.at? ["D"] = some (.directory false) ∧
      ¬(littleMemory.performAll
        (.load oneInstruction [] :: askingFor underLongName)).CreatesOrLeaves t := by
  rw [performAll_oneInstruction]
  obtain ⟨free, proceeds, answered, there⟩ := leaves_underLongName
  rcases trapped : (withInstruction.performAll (askingFor underLongName)).trap
    Trap.gemdosVector with ⟨outcome, t⟩
  rw [trapped] at proceeds answered there
  obtain rfl : outcome = .ok .proceed := proceeds
  refine ⟨t, rfl, answered, free, there, fun law => ?_⟩
  have negative : (t.system.registers.get .answer).toInt32 < 0 := by
    rw [answered]
    decide
  rw [(law.leaves negative).1, free] at there
  cases there

end Session

end AtariTos

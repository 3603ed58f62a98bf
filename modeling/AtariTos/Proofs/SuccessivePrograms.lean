import AtariTos.Proofs.ProgramEnd
import AtariTos.Proofs.SupervisorCalls

namespace AtariTos

theorem Service.root_setDirectory (s : System) :
    (setDirectory.after s).kernel.drive.root = s.kernel.drive.root := by
  unfold setDirectory
  rcases Touches.after_bind (.argumentLong 2) _ s with same | ⟨addr, _, same⟩
  · rw [same]
  rw [same]
  rcases Touches.after_bind (.pathAt addr) _ s with same | ⟨guest, _, same⟩
  · rw [same]
  rw [same, after_get_bind]
  cases changed : s.kernel.drive.changeDirectory s.host guest with
  | error cause => rfl
  | ok drive =>
    unfold Drive.changeDirectory at changed
    split at changed
    · cases changed
    split at changed
    · cases changed
    split at changed <;> cases changed
    rfl

namespace Session

variable {s t loaded : Session} {action : Action} {actions : List Action} {file : Bytes}
  {args : List String} {program : LoadedProgram} {ramTop : UInt32} {root : HostPath}

/-- A session as it is created on some host. -/
def Created (ramTop : UInt32) (root : HostPath) (s : Session) : Prop :=
  ∃ host working path, create host working path ramTop = .ok s ∧ s.system.kernel.drive.root = root

theorem exists_of_created (h : Created ramTop root s) :
    ∃ host, s = { ramTop, system := { kernel := { drive := { root } }, host } } := by
  obtain ⟨host, working, path, created, rfl⟩ := h
  unfold create at created
  split at created
  · cases created
  next drive mounted =>
    obtain ⟨root, _, _, rfl⟩ := Drive.mount_eq_ok mounted
    cases created
    exact ⟨host, rfl⟩

theorem ramTop_perform (s : Session) (action : Action) : (s.perform action).ramTop = s.ramTop := by
  by_cases keeps : action.keepsProgram
  · obtain ⟨system, same⟩ := s.exists_system_of_perform keeps
    rw [same]
  · obtain ⟨file, args, rfl⟩ | rfl := Action.load_or_close keeps
    · rw [perform, load]
      split <;> rfl
    · rfl

theorem drive_perform (stays : ∀ vector, action = .trap vector →
      Trap.routine s.system vector ≠ .ok .setDirectory) :
    (s.perform action).system.kernel.drive = s.system.kernel.drive := by
  by_cases trap : ∃ vector, action = .trap vector
  · obtain ⟨vector, rfl⟩ := trap
    change (Trap.serve vector s.system).2.kernel.drive = _
    rcases Trap.exists_after_serve vector s.system with same | ⟨called, registers, asked, same⟩
    · rw [same]
    · have outside : .drive ∉ called.parts := by
        cases called <;> first | decide | exact absurd asked (stays vector rfl)
      rw [same]
      exact called.run_touches s.system .drive outside
  by_cases keeps : action.keepsProgram
  · obtain ⟨_, suspended, kernel⟩ := kernel_perform (s := s) keeps fun vector same =>
      trap ⟨vector, same⟩
    rw [kernel]
  · obtain ⟨file, args, rfl⟩ | rfl := Action.load_or_close keeps
    · rw [perform, load]
      split <;> rfl
    · rfl

theorem root_perform (s : Session) (action : Action) :
    (s.perform action).system.kernel.drive.root = s.system.kernel.drive.root := by
  by_cases moves : ∃ vector, action = .trap vector ∧
      Trap.routine s.system vector = .ok .setDirectory
  · obtain ⟨vector, rfl, asked⟩ := moves
    change (Trap.serve vector s.system).2.kernel.drive.root = _
    obtain ⟨registers, same⟩ := Trap.after_serve asked
    rw [same, Routine.run, Service.after_map]
    exact Service.root_setDirectory s.system
  · have same := drive_perform fun vector trap asked => moves ⟨vector, trap, asked⟩
    rw [same]

theorem configuration_performAll (created : Created ramTop root s) (actions : List Action) :
    (s.performAll actions).ramTop = ramTop ∧
      (s.performAll actions).system.kernel.drive.root = root := by
  refine performAll_induction
    (fun t => t.ramTop = ramTop ∧ t.system.kernel.drive.root = root) (fun _ => True)
    (fun t action _ same => ?_) (fun _ _ => trivial) ?_
  · exact ⟨(t.ramTop_perform action).trans same.1, (t.root_perform action).trans same.2⟩
  · obtain ⟨host, rfl⟩ := exists_of_created created
    exact ⟨rfl, rfl⟩

/-- No trap of a run asks for another current directory. -/
def StaysInDirectory (start : Session) (actions : List Action) : Prop :=
  ∀ past vector, past ++ [.trap vector] <+: actions →
    Trap.routine (start.performAll past).system vector ≠ .ok .setDirectory

theorem drive_performAll (stays : s.StaysInDirectory actions) :
    (s.performAll actions).system.kernel.drive = s.system.kernel.drive := by
  induction actions using List.reverseRecOn with
  | nil => rfl
  | append_singleton past action ih =>
    have before := ih fun earlier vector early =>
      stays earlier vector (early.trans (List.prefix_append past [action]))
    rw [performAll_concat]
    refine (drive_perform fun vector trap => ?_).trans before
    exact stays past vector (trap ▸ List.prefix_refl _)

/-- What is loaded depends on nothing in a session but the size of its memory, and the kernel that a
program finds on nothing but the drive. -/
theorem loaded_congr {loaded' : Session} {program' : LoadedProgram} (top : t.ramTop = s.ramTop)
    (root : t.system.kernel.drive.root = s.system.kernel.drive.root)
    (h : s.load file args = (.ok program, loaded))
    (h' : t.load file args = (.ok program', loaded')) :
    program' = program ∧ loaded'.program = loaded.program ∧
      loaded'.system.memory = loaded.system.memory ∧
      loaded'.system.kernel =
        { loaded.system.kernel with drive.directory := t.system.kernel.drive.directory } ∧
      loaded.system.kernel.drive.directory = s.system.kernel.drive.directory ∧
      loaded'.system.kernel.drive.directory = t.system.kernel.drive.directory := by
  obtain ⟨memory, built, rfl⟩ := exists_of_load h
  obtain ⟨memory', built', rfl⟩ := exists_of_load h'
  rw [top, built] at built'
  cases built'
  -- Of the kernel before only the drive is kept, and of the drive only the root is the same.
  have drive : t.system.kernel.drive =
      { s.system.kernel.drive with directory := t.system.kernel.drive.directory } :=
    congrArg (Drive.mk · _) root
  have handles : t.system.kernel.handles.closeFiles = s.system.kernel.handles.closeFiles := by
    rw [Handles.closeFiles_eq_empty, Handles.closeFiles_eq_empty]
  refine ⟨rfl, rfl, rfl, ?_, rfl, rfl⟩
  change { t.system.kernel.forgetProcess program.heap with drive := t.system.kernel.drive } = _
  rw [drive, Kernel.forgetProcess, handles]
  rfl

/-- The same process is about to start in two sessions. -/
structure SameProcess (s t : Session) : Prop where
  program : t.program = s.program
  memory : t.system.memory = s.system.memory
  heap : t.system.kernel.heap = s.system.kernel.heap
  dta : t.system.kernel.dta = s.system.kernel.dta
  handles : t.system.kernel.handles = s.system.kernel.handles
  suspended : t.system.kernel.suspended = s.system.kernel.suspended
  directory : t.system.kernel.drive.directory = s.system.kernel.drive.directory

/-- Two machines of one configuration, with the same root of the drive, have been used in any way,
and the same program is loaded into both. Then both hold the same program, memory, heap, transfer
address, handles and waiting callers, whatever happened before. Only the current directory stays in
each machine what it was. So the same process is about to start if and only if the directories were
the same, as they are when no call has asked for another one. -/
theorem sameProcess_iff {start start' loaded' : Session} {past past' : List Action}
    {program' : LoadedProgram} (created : Created ramTop root start)
    (created' : Created ramTop root start')
    (h : (start.performAll past).load file args = (.ok program, loaded))
    (h' : (start'.performAll past').load file args = (.ok program', loaded')) :
    let directory := (start.performAll past).system.kernel.drive.directory
    let directory' := (start'.performAll past').system.kernel.drive.directory
    program' = program ∧ loaded'.program = loaded.program ∧
    loaded'.system.memory = loaded.system.memory ∧
    loaded'.system.kernel = { loaded.system.kernel with drive.directory := directory' } ∧
    loaded.system.kernel.drive.directory = directory ∧
    (loaded.SameProcess loaded' ↔ directory' = directory) ∧
    (start.StaysInDirectory past → start'.StaysInDirectory past' → loaded.SameProcess loaded') := by
  intro directory directory'
  obtain ⟨top, drive⟩ := configuration_performAll created past
  obtain ⟨top', drive'⟩ := configuration_performAll created' past'
  obtain ⟨same, image, memory, kernel, found, found'⟩ :=
    loaded_congr (top'.trans top.symm) (drive'.trans drive.symm) h h'
  have equal : loaded.SameProcess loaded' ↔ directory' = directory := by
    constructor
    · intro alike
      exact found'.symm.trans (alike.directory.trans found)
    · intro directories
      exact ⟨image, memory, by rw [kernel], by rw [kernel], by rw [kernel], by rw [kernel],
        found'.trans (directories.trans found.symm)⟩
  refine ⟨same, image, memory, kernel, found, equal, fun stays stays' => equal.mpr ?_⟩
  obtain ⟨_, rfl⟩ := exists_of_created created
  obtain ⟨_, rfl⟩ := exists_of_created created'
  exact congrArg Drive.directory ((drive_performAll stays').trans (drive_performAll stays).symm)

theorem created_littleMemory : Created 0x1300 [] littleMemory := by
  have mounted : Drive.mount {} [] "/" = .ok { root := [] } := by decide
  refine ⟨{}, [], "/", ?_, rfl⟩
  rw [create, mounted]
  rfl

theorem exists_load_again (s : Session) (top : s.ramTop = 0x1300) :
    ∃ loaded, s.load oneInstruction [] = (.ok loadedInstruction, loaded) := by
  obtain ⟨memory, built, _⟩ := exists_of_load load_oneInstruction
  have same : s.ramTop = littleMemory.ramTop := top
  exact ⟨_, by rw [load, same, built]⟩

theorem performAll_oneInstruction (actions : List Action) :
    littleMemory.performAll (.load oneInstruction [] :: actions) =
      withInstruction.performAll actions := by
  rw [performAll, List.foldl_cons, perform, load_oneInstruction]
  rfl

/-- The program creates a directory `D` and makes it the current one. -/
def moving : List Action :=
  [.registers { address := #v[0, 0, 0, 0, 0, 0, 0, 0xb00] },
    .write 0xb00 [0, 0x39, 0, 0, 0x0b, 6, 0x44, 0] .user, .trap Trap.gemdosVector,
    .write 0xb00 [0, 0x3b] .user, .trap Trap.gemdosVector]

set_option maxRecDepth 10000 in
theorem kernel_reserveSixteen :
    (withInstruction.performAll reserveSixteen).system.kernel.drive.directory = [] ∧
      (withInstruction.performAll reserveSixteen).system.kernel.handles = .empty ∧
      (withInstruction.performAll reserveSixteen).system.kernel.suspended = [] := by
  rw [withInstruction, loadedAreas, LoadedProgram.areas, LoadedProgram.userArea_eq]
  decide +kernel

set_option maxRecDepth 10000 in
theorem directory_moving :
    (withInstruction.performAll moving).system.kernel.drive.directory = [[0x44]] := by
  rw [withInstruction, loadedAreas, LoadedProgram.areas, LoadedProgram.userArea_eq]
  decide +kernel

/-- The program that has called for a block makes way for itself. -/
theorem sameProcess_iff_reserveSixteen :
    Created 0x1300 [] littleMemory ∧
      littleMemory.load oneInstruction [] = (.ok loadedInstruction, withInstruction) ∧
      ∃ loaded,
        (littleMemory.performAll (.load oneInstruction [] :: reserveSixteen)).load
          oneInstruction [] = (.ok loadedInstruction, loaded) ∧
        withInstruction.SameProcess loaded := by
  have created := created_littleMemory
  have directory : (littleMemory.performAll
      (.load oneInstruction [] :: reserveSixteen)).system.kernel.drive.directory = [] := by
    rw [performAll_oneInstruction]
    exact kernel_reserveSixteen.1
  obtain ⟨loaded, again⟩ := exists_load_again
    (littleMemory.performAll (.load oneInstruction [] :: reserveSixteen))
    (configuration_performAll created _).1
  have first : (littleMemory.performAll []).load oneInstruction [] =
      (.ok loadedInstruction, withInstruction) := load_oneInstruction
  obtain ⟨_, _, _, _, _, same, _⟩ := sameProcess_iff created created first again
  exact ⟨created, load_oneInstruction, loaded, again, same.mpr directory⟩

/-- The program that has moved to another directory leaves it to its successor. -/
theorem not_sameProcess_moving :
    Created 0x1300 [] littleMemory ∧
      littleMemory.load oneInstruction [] = (.ok loadedInstruction, withInstruction) ∧
      ∃ loaded,
        (littleMemory.performAll (.load oneInstruction [] :: moving)).load oneInstruction [] =
          (.ok loadedInstruction, loaded) ∧
        ¬withInstruction.SameProcess loaded := by
  have created := created_littleMemory
  obtain ⟨loaded, again⟩ := exists_load_again
    (littleMemory.performAll (.load oneInstruction [] :: moving))
    (configuration_performAll created _).1
  obtain ⟨top, root⟩ := configuration_performAll created (.load oneInstruction [] :: moving)
  obtain ⟨_, _, _, _, found, found'⟩ := loaded_congr top root load_oneInstruction again
  refine ⟨created, load_oneInstruction, loaded, again, fun same => ?_⟩
  have directory := found'.symm.trans (same.directory.trans found)
  rw [performAll_oneInstruction, directory_moving] at directory
  cases directory

theorem eq_of_failed_load {cause : LoadFailure} {after : Session}
    (h : s.load file args = (.error cause, after)) :
    after = { s with program := none, system.memory := .empty } := by
  unfold load at h
  split at h
  · cases h
    rfl
  · cases h

theorem kernel_of_failed_load {cause : LoadFailure} {after : Session}
    (h : s.load file args = (.error cause, after)) : after.system.kernel = s.system.kernel := by
  obtain rfl := eq_of_failed_load h
  rfl

/-- A load that fails discards the program before and its memory, but nothing of it in the kernel:
handles, heap, transfer address, current directory and waiting callers stay. So nothing is left of
the program, as when it is closed, if and only if it had no file open and no caller was waiting. -/
theorem closed_iff_of_failed_load {cause : LoadFailure} {after : Session}
    (h : s.load file args = (.error cause, after)) :
    after.program = none ∧ after.system.memory = .empty ∧
    after.system.kernel = s.system.kernel ∧
    (after.Closed ↔ (∀ handle, s.system.kernel.handles.opened handle = none) ∧
      s.system.kernel.suspended = []) ∧
    (after.Closed ↔ after = s.close) ∧ after.close = s.close := by
  obtain rfl := eq_of_failed_load h
  refine ⟨rfl, rfl, rfl, ⟨fun closed => ⟨closed.files, closed.suspended⟩, fun left => ?_⟩,
    ⟨fun closed => ?_, fun same => ?_⟩, rfl⟩
  · exact ⟨rfl, rfl, left.1, left.2⟩
  · have handles : s.system.kernel.handles = .empty := Handles.eq_empty_of_opened closed.files
    have suspended : s.system.kernel.suspended = [] := closed.suspended
    rw [close, Handles.closeFiles_eq_empty, ← handles, ← suspended]
  · rw [same]
    exact s.closed_close

/-- The program creates a file `F` and calls a routine in supervisor mode. -/
def leaving : List Action :=
  [.registers { address := #v[0, 0, 0, 0, 0, 0, 0, 0xb00] },
    .write 0xb00 [0, 0x3c, 0, 0, 0x0b, 8, 0, 0, 0x46, 0] .user, .trap Trap.gemdosVector] ++
      callingRoutine ++ [.trap Trap.xbiosVector]

set_option maxRecDepth 10000 in
theorem kernel_leaving :
    ((withInstruction.performAll leaving).system.kernel.handles.opened 6).isSome ∧
      (withInstruction.performAll leaving).system.kernel.suspended.length = 1 := by
  rw [withInstruction, loadedAreas, LoadedProgram.areas, LoadedProgram.userArea_eq]
  decide +kernel

theorem exists_failed_load (s : Session) : ∃ after, s.load #[] [] =
    (.error (.badHeader (.short 0)), after) :=
  ⟨_, rfl⟩

/-- Nothing is left of a program that has called for a block. -/
theorem closed_iff_of_failed_load_reserveSixteen :
    littleMemory.load oneInstruction [] = (.ok loadedInstruction, withInstruction) ∧
      ∃ after, (withInstruction.performAll reserveSixteen).load #[] [] =
          (.error (.badHeader (.short 0)), after) ∧
        after.Closed := by
  obtain ⟨after, failed⟩ := exists_failed_load (withInstruction.performAll reserveSixteen)
  obtain ⟨_, _, _, closed, _⟩ := closed_iff_of_failed_load failed
  obtain ⟨_, handles, suspended⟩ := kernel_reserveSixteen
  refine ⟨load_oneInstruction, after, failed, closed.mpr ⟨fun handle => ?_, suspended⟩⟩
  rw [handles, Handles.opened_empty]

/-- A load that fails leaves a file open and a caller waiting. -/
theorem not_closed_leaving :
    Created 0x1300 [] littleMemory ∧
      ∃ after,
        (littleMemory.performAll (.load oneInstruction [] :: leaving)).load #[] [] =
          (.error (.badHeader (.short 0)), after) ∧
        (after.system.kernel.handles.opened 6).isSome ∧
        after.system.kernel.suspended.length = 1 ∧ ¬after.Closed := by
  obtain ⟨after, failed⟩ :=
    exists_failed_load (littleMemory.performAll (.load oneInstruction [] :: leaving))
  have kernel := kernel_of_failed_load failed
  rw [performAll_oneInstruction] at kernel
  obtain ⟨opened, waiting⟩ := kernel_leaving
  rw [← kernel] at opened waiting
  refine ⟨created_littleMemory, after, failed, opened, waiting, fun closed => ?_⟩
  rw [closed.files 6] at opened
  cases opened

end Session

end AtariTos

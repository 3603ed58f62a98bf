import AtariTos.Proofs.CallConfinement
import AtariTos.Proofs.SessionRun

namespace AtariTos

open HostTree (SameOutside ChangedBelow)

namespace Session

variable {s start : Session} {root working : HostPath} {host : HostTree} {action : Action}
  {actions : List Action} {vector : UInt8}

/-- Since a session has started nothing has happened to the host's files outside the root of the
drive, and no handle stands for a file there. -/
structure Confined (start s : Session) : Prop where
  outside : SameOutside start.system.kernel.drive.root start.system.host s.system.host
  handles : ∀ id, s.system.kernel.handles.IsOpen id → ∀ p, s.system.host.at? p = some (.file id) →
    start.system.kernel.drive.root <+: p

def Escapes (s : Session) (vector : UInt8) : Prop :=
  ∃ called, Trap.routine s.system vector = .ok called ∧ called.Escapes s.system

/-- A drive as it is when a session starts: its root is a directory of the host, the current
directory is the root, and no file is open. -/
structure Mounted (s : Session) : Prop where
  isTree : s.system.host.IsTree
  root : s.system.host.HasDirectory s.system.kernel.drive.root
  directory : s.system.kernel.drive.directory = []
  handles : s.system.kernel.handles = .empty

theorem mounted_create (good : host.IsTree) (there : host.HasDirectory working) {path : String}
    {ramTop : UInt32} (created : create host working path ramTop = .ok s) : s.Mounted := by
  unfold create at created
  split at created
  · cases created
  next drive mounted =>
    obtain ⟨root, r, reached, rfl⟩ := Drive.mount_eq_ok mounted
    cases created
    exact ⟨good, ⟨r, good.holds_of_locateText there reached⟩, rfl, rfl⟩

theorem Mounted.bounded (mounted : s.Mounted) :
    s.system.Bounded s.system.kernel.drive.root s.system.host := by
  obtain ⟨good, ⟨r, there⟩, directory, handles⟩ := mounted
  refine ⟨.refl good, fun id isOpen => ?_, rfl, good.isStraight there, fun name member => ?_⟩
  · rw [handles] at isOpen
    exact absurd isOpen Handles.not_isOpen_empty
  · rw [directory] at member
    cases member

theorem confined_of_bounded
    (h : s.system.Bounded start.system.kernel.drive.root start.system.host) : start.Confined s :=
  ⟨h.changed.toSameOutside, fun id isOpen => (h.isOpen id isOpen).2⟩

theorem bounded_perform_of_not_trap (h : s.system.Bounded root host)
    (noTrap : ∀ vector, action ≠ .trap vector) : (s.perform action).system.Bounded root host := by
  have forgotten : ∀ id, s.system.kernel.handles.closeFiles.IsOpen id →
      s.system.host.OnlyBelow root id :=
    fun _ isOpen => absurd isOpen (Handles.not_isOpen_closeFiles _)
  cases action with
  | load file args =>
    rw [perform, load]
    split
    · exact h.of_same rfl rfl rfl
    · exact ⟨h.changed, forgotten, h.drive, h.straight, h.plain⟩
  | close => exact ⟨h.changed, forgotten, h.drive, h.straight, h.plain⟩
  | _ =>
    obtain ⟨sameHost, suspended, kernel⟩ := kernel_perform (s := s) rfl noTrap
    exact h.of_same sameHost (kernel ▸ rfl) (kernel ▸ rfl)

theorem bounded_trap (h : s.system.Bounded root host) (stays : ¬s.Escapes vector) :
    (s.trap vector).2.system.Bounded root host := by
  change (Trap.serve vector s.system).2.Bounded root host
  rcases Trap.exists_after_serve vector s.system with same | ⟨called, registers, asked, same⟩
  · rw [same]
    exact h
  · rw [same]
    have bounded := Routine.bounded_run h fun escapes => stays ⟨called, asked, escapes⟩
    exact bounded.of_same rfl rfl rfl

/-- A trap that asks for a call that reaches out leaves a mark outside the root. -/
theorem not_confined_of_escapes
    (h : s.system.Bounded start.system.kernel.drive.root start.system.host)
    (escapes : s.Escapes vector) : ¬start.Confined (s.perform (.trap vector)) := by
  obtain ⟨called, asked, escapes⟩ := escapes
  obtain ⟨q, outside, differs⟩ := Routine.exists_ne_of_escapes h escapes
  intro confined
  have after := confined.outside.entries q outside
  change (Trap.serve vector s.system).2.host.at? q = _ at after
  obtain ⟨registers, same⟩ := Trap.after_serve asked
  rw [same] at after
  exact differs (after.trans (h.changed.entries q outside).symm)

theorem performAll_concat (s : Session) (actions : List Action) (action : Action) :
    s.performAll (actions ++ [action]) = (s.performAll actions).perform action := by
  rw [performAll, List.foldl_append]
  rfl

theorem bounded_performAll (h : start.system.Bounded root host)
    (stays : ∀ past vector, past ++ [.trap vector] <+: actions →
      (start.performAll past).system.Bounded root host → ¬(start.performAll past).Escapes vector) :
    (start.performAll actions).system.Bounded root host := by
  induction actions using List.reverseRecOn with
  | nil => exact h
  | append_singleton past action ih =>
    have bounded := ih fun earlier vector early =>
      stays earlier vector (early.trans (List.prefix_append past [action]))
    rw [performAll_concat]
    by_cases trap : ∃ vector, action = .trap vector
    · obtain ⟨vector, rfl⟩ := trap
      exact bounded_trap bounded (stays past vector (List.prefix_refl _) bounded)
    · exact bounded_perform_of_not_trap bounded fun vector same => trap ⟨vector, same⟩

theorem confined_of_no_links (mounted : start.Mounted)
    (noLinks : ∀ p target, start.system.host.at? p = some (.link target) →
      ¬start.system.kernel.drive.root <+: p) (actions : List Action) :
    start.Confined (start.performAll actions) := by
  refine confined_of_bounded (bounded_performAll mounted.bounded fun past vector _ bounded => ?_)
  rintro ⟨called, _, escapes⟩
  exact Routine.not_escapes bounded mounted.root noLinks escapes

/-- At every point of every run the host's files outside the root are as they were at the start, and
no handle stands for one of them, exactly if no trap of the run asks for a file to be created where
a link leads to a free name outside, or for a link to be removed that stands outside. Where there
are no links below the root at the start, no trap does. -/
theorem confined_iff (mounted : start.Mounted) (actions : List Action) :
    ((∀ past, past <+: actions → start.Confined (start.performAll past)) ↔
      ∀ past vector, past ++ [.trap vector] <+: actions →
        ¬(start.performAll past).Escapes vector) ∧
    ((∀ p target, start.system.host.at? p = some (.link target) →
        ¬start.system.kernel.drive.root <+: p) →
      ∀ past, past <+: actions → start.Confined (start.performAll past)) := by
  refine ⟨?_, fun noLinks past _ => confined_of_no_links mounted noLinks past⟩
  constructor
  · intro confined past vector early
    have before := (List.prefix_append past [.trap vector]).trans early
    have bounded : (start.performAll past).system.Bounded start.system.kernel.drive.root
        start.system.host := by
      refine bounded_performAll mounted.bounded fun earlier vector early bounded escapes => ?_
      refine not_confined_of_escapes bounded escapes ?_
      rw [← performAll_concat]
      exact confined _ (early.trans before)
    intro escapes
    refine not_confined_of_escapes bounded escapes ?_
    rw [← performAll_concat]
    exact confined _ early
  · intro stays past before
    refine confined_of_bounded (bounded_performAll mounted.bounded fun earlier vector early _ => ?_)
    exact stays earlier vector (early.trans before)

/-- A host on which a link below `C` leads to a name that is free in another directory. -/
def linkedHost : HostTree where
  entries :=
    [(["OUT"], .directory false), (["C"], .directory false), (["C", "L"], .link "../OUT/NEW")]

/-- A program whose stack holds a call that creates a file of a name of one letter. -/
def creating (letter : UInt8) : Session where
  system :=
    { memory := ⟨[.ofBuffer "ram" 0 #[0, 0x3c, 0, 0, 0, 8, 0, 0, letter, 0] .readWrite]⟩
      kernel := { drive := { root := ["C"] } }
      host := linkedHost }

theorem isTree_linkedHost : linkedHost.IsTree :=
  HostTree.isTree_of_entries (by decide) (by decide) (by simp [linkedHost])

theorem mounted_creating (letter : UInt8) : (creating letter).Mounted := by
  have mount : Drive.mount linkedHost [] "C" = .ok { root := ["C"] } := by decide
  have created : create linkedHost [] "C" 0x1000 =
      .ok ⟨0x1000, { kernel := { drive := { root := ["C"] } }, host := linkedHost }, none⟩ := by
    rw [create, mount]
  obtain ⟨good, root, directory, handles⟩ := mounted_create isTree_linkedHost ⟨false, rfl⟩ created
  exact ⟨good, root, directory, handles⟩

/-- A file is created inside. -/
theorem confined_iff_creating :
    (creating 0x46).Mounted ∧
      (∀ past, past <+: [.trap Trap.gemdosVector] →
        (creating 0x46).Confined ((creating 0x46).performAll past)) ∧
      ((creating 0x46).perform (.trap Trap.gemdosVector)).system.host.at? ["C", "F"] =
        some (.file 0) := by
  have mounted := mounted_creating 0x46
  refine ⟨mounted, (confined_iff mounted _).1.mpr fun past vector early => ?_, by decide⟩
  rintro ⟨called, asked, escapes⟩
  obtain ⟨rest, same⟩ := early
  cases past with
  | cons first more => simp at same
  | nil =>
    obtain ⟨same, _⟩ := List.cons.inj same
    obtain rfl := Action.trap.inj same
    have create : Trap.routine (creating 0x46).system Trap.gemdosVector = .ok .createFile := by
      decide
    obtain rfl := Except.ok.inj (create.symm.trans asked)
    obtain ⟨_, p, d, n, ran, reached, outside⟩ := escapes
    have spelled : (Service.argumentPath 2).run (creating 0x46).system =
        .ok ["C", "F"] (creating 0x46).system := rfl
    obtain ⟨rfl, _⟩ := EStateM.Result.ok.inj (ran.symm.trans spelled)
    have free : linkedHost.locate ["C", "F"] true = .ok (.absent ["C"] "F") := by decide
    obtain ⟨rfl, rfl⟩ := Place.absent.inj (Except.ok.inj (reached.symm.trans free))
    exact outside (by decide)

/-- A file is created outside. -/
theorem not_confined_creating :
    (creating 0x4c).Mounted ∧
      ¬(creating 0x4c).Confined ((creating 0x4c).performAll [.trap Trap.gemdosVector]) := by
  refine ⟨mounted_creating 0x4c, fun confined => ?_⟩
  have created : ((creating 0x4c).performAll [.trap Trap.gemdosVector]).system.host.at?
      ["OUT", "NEW"] = some (.file 0) := by decide
  have before : (creating 0x4c).system.host.at? ["OUT", "NEW"] = none := by decide
  rw [confined.outside.entries ["OUT", "NEW"] (by decide), before] at created
  cases created

end Session

end AtariTos

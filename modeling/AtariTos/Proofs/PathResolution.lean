import AtariTos.Proofs.GuestPaths

namespace AtariTos

namespace GuestName

/-- The names in a path that lead down. -/
def descents (path : List GuestName) : Nat :=
  path.countP fun segment => segment ≠ [] ∧ segment ≠ dot ∧ segment ≠ dotDot

/-- The steps up in a path. -/
def ascents (path : List GuestName) : Nat :=
  path.countP fun segment => segment = dotDot

/-- From some depth a path goes up further than it has come down. -/
def Climbs (depth : Nat) (path : List GuestName) : Prop :=
  ∃ front, front <+: path ∧ depth + descents front < ascents front

variable {depth : Nat} {segment : GuestName} {path rest : List GuestName}

theorem not_climbs_nil : ¬Climbs depth [] := by
  rintro ⟨front, shorter, climbs⟩
  obtain rfl := List.prefix_nil.mp shorter
  exact absurd climbs (Nat.not_lt_zero _)

theorem climbs_cons_iff :
    Climbs depth (segment :: rest) ↔ ∃ front, front <+: rest ∧
      depth + descents (segment :: front) < ascents (segment :: front) := by
  constructor
  · rintro ⟨front, shorter, climbs⟩
    rcases List.prefix_cons_iff.mp shorter with rfl | ⟨front, rfl, later⟩
    · exact absurd climbs (Nat.not_lt_zero _)
    · exact ⟨front, later, climbs⟩
  · rintro ⟨front, shorter, climbs⟩
    exact ⟨segment :: front, (List.prefix_cons_inj segment).mpr shorter, climbs⟩

theorem climbs_cons_of_skipped (skipped : segment = [] ∨ segment = dot) :
    Climbs depth (segment :: rest) ↔ Climbs depth rest := by
  have level : ∀ front, descents (segment :: front) = descents front ∧
      ascents (segment :: front) = ascents front := by
    intro front
    rcases skipped with rfl | rfl
    · exact ⟨rfl, rfl⟩
    · exact ⟨rfl, rfl⟩
  rw [climbs_cons_iff]
  refine exists_congr fun front => ?_
  rw [(level front).1, (level front).2]

theorem climbs_dotDot_iff :
    Climbs depth (dotDot :: rest) ↔ depth = 0 ∨ Climbs (depth - 1) rest := by
  have level : ∀ front, descents (dotDot :: front) = descents front ∧
      ascents (dotDot :: front) = ascents front + 1 :=
    fun front => ⟨rfl, List.countP_cons_of_pos rfl⟩
  rw [climbs_cons_iff]
  constructor
  · rintro ⟨front, shorter, climbs⟩
    rw [(level front).1, (level front).2] at climbs
    rcases Nat.eq_zero_or_pos depth with none | some
    · exact .inl none
    · exact .inr ⟨front, shorter, by omega⟩
  · rintro (rfl | ⟨front, shorter, climbs⟩)
    · exact ⟨[], List.nil_prefix, Nat.zero_lt_one⟩
    · refine ⟨front, shorter, ?_⟩
      rw [(level front).1, (level front).2]
      omega

theorem climbs_cons_of_name (filled : segment ≠ []) (plain : segment.IsPlain) :
    Climbs depth (segment :: rest) ↔ Climbs (depth + 1) rest := by
  have level : ∀ front, descents (segment :: front) = descents front + 1 ∧
      ascents (segment :: front) = ascents front := fun front =>
    ⟨List.countP_cons_of_pos (decide_eq_true ⟨filled, plain⟩),
      List.countP_cons_of_neg (by simpa using plain.2)⟩
  rw [climbs_cons_iff]
  refine exists_congr fun front => ?_
  rw [(level front).1, (level front).2, Nat.add_right_comm, Nat.add_assoc]

end GuestName

theorem HostTree.exists_of_canonical? {tree : HostTree} {p d : HostPath}
    (h : tree.canonical? p = some d) : ∃ e, tree.locate p true = .ok (.found d e) := by
  unfold canonical? at h
  cases reached : tree.locate p true with
  | error cause =>
    rw [reached] at h
    cases h
  | ok place =>
    rw [reached] at h
    cases place with
    | absent d n => cases h
    | found d e =>
      cases h
      exact ⟨e, rfl⟩

namespace Drive

open GuestName (Climbs)
open HostTree (exists_of_canonical?)

variable {drive : Drive} {tree : HostTree} {guest : List UInt8} {names : List GuestName}

/-- A drive that has been mounted, and whose current directory has been changed any number of times,
whatever has become of the host's files in between. -/
inductive Reached : Drive → Prop
  | mounted {tree : HostTree} {working : HostPath} {text : String} {drive : Drive}
    (h : mount tree working text = .ok drive) : Reached drive
  | moved {drive next : Drive} {tree : HostTree} {guest : List UInt8} (before : Reached drive)
    (h : drive.changeDirectory tree guest = .ok next) : Reached next

theorem normal_names (normal : ∀ name ∈ drive.directory, name.IsNormal)
    (h : drive.names guest = .ok names) : ∀ name ∈ names, name.IsNormal :=
  forall_names normal (fun _ => isNormal_of_mem_segments) h

theorem Reached.normal (reached : Reached drive) : ∀ name ∈ drive.directory, name.IsNormal := by
  induction reached with
  | mounted h =>
    obtain ⟨_, _, _, rfl⟩ := mount_eq_ok h
    exact fun _ member => absurd member List.not_mem_nil
  | moved before h normal =>
    obtain ⟨names, spelled, _, _, rfl⟩ := changeDirectory_eq_ok_iff.mp h
    exact normal_names normal spelled

theorem foldlM_descend_eq_none_iff (path start : List GuestName) :
    path.foldlM descend start = none ↔ Climbs start.length path := by
  induction path generalizing start with
  | nil => exact iff_of_false (fun h => by cases h) GuestName.not_climbs_nil
  | cons segment rest ih =>
    rw [List.foldlM_cons, descend]
    by_cases skipped : segment = [] ∨ segment = GuestName.dot
    · rw [if_pos skipped, GuestName.climbs_cons_of_skipped skipped]
      exact ih _
    rw [if_neg skipped]
    by_cases up : segment = GuestName.dotDot
    · subst up
      rw [if_pos rfl, GuestName.climbs_dotDot_iff]
      by_cases root : start = []
      · subst root
        exact iff_of_true rfl (.inl rfl)
      · have some : start.length ≠ 0 := fun none => root (List.eq_nil_of_length_eq_zero none)
        rw [if_neg root, or_iff_right some, ← List.length_dropLast]
        exact ih _
    · have filled : segment ≠ [] := fun empty => skipped (.inl empty)
      have plain : segment.IsPlain := ⟨fun dot => skipped (.inr dot), up⟩
      rw [if_neg up, GuestName.climbs_cons_of_name filled plain]
      have longer : (start ++ [segment]).length = start.length + 1 := List.length_append
      rw [← longer]
      exact ih _

/-- Reading a guest path, somewhere along it there are more steps up than names to leave, counting
those of the current directory if the path does not start at the root. -/
def ClimbsOut (drive : Drive) (guest : List UInt8) : Prop :=
  Climbs (if startsAtRoot (dropLetter guest) then 0 else drive.directory.length)
    (segments (dropLetter guest))

theorem names_eq_error_iff {cause : PathRefusal} :
    drive.names guest = .error cause ↔
      cause = .overlong ∧ 256 < guest.length ∨
        cause = .outside ∧ guest.length ≤ 256 ∧ drive.ClimbsOut guest := by
  have depth : (if startsAtRoot (dropLetter guest) then [] else drive.directory).length =
      if startsAtRoot (dropLetter guest) then 0 else drive.directory.length := by
    split <;> rfl
  have climbs := foldlM_descend_eq_none_iff (segments (dropLetter guest))
    (if startsAtRoot (dropLetter guest) then [] else drive.directory)
  rw [depth, ← ClimbsOut] at climbs
  have limit : pathMax = 256 := rfl
  rw [names, ← climbs, limit]
  by_cases long : 256 < guest.length
  · rw [if_pos long]
    constructor
    · rintro ⟨⟩
      exact .inl ⟨rfl, long⟩
    · rintro (⟨rfl, _⟩ | ⟨_, short, _⟩)
      · rfl
      · exact absurd short (Nat.not_le_of_lt long)
  · rw [if_neg long]
    dsimp only
    cases (segments (dropLetter guest)).foldlM descend
      (if startsAtRoot (dropLetter guest) then [] else drive.directory) with
    | none =>
      constructor
      · rintro ⟨⟩
        exact .inr ⟨rfl, Nat.le_of_not_lt long, rfl⟩
      · rintro (⟨_, long'⟩ | ⟨rfl, _⟩)
        · exact absurd long' long
        · rfl
    | some names =>
      constructor
      · rintro ⟨⟩
      · rintro (⟨_, long'⟩ | ⟨_, _, climbs⟩)
        · exact absurd long' long
        · cases climbs

theorem encloses_of_no_links (good : tree.IsTree) (there : tree.HasDirectory drive.root)
    (noLinks : ∀ p target, tree.at? p = some (.link target) → ¬drive.root <+: p)
    {names : List String} (straight : HostPath.IsStraight names) :
    drive.encloses tree (drive.root ++ names) = true := by
  induction names using List.reverseRecOn with
  | nil =>
    obtain ⟨r, found⟩ := good.locate_of_hasDirectory there
    rw [List.append_nil, encloses_of_found (found true)]
    exact List.isPrefixOf_iff_prefix.mpr (List.prefix_refl drive.root)
  | append_singleton front n ih =>
    cases reached : tree.canonical? (drive.root ++ (front ++ [n])) with
    | some d =>
      obtain ⟨e, found⟩ := exists_of_canonical? reached
      rw [encloses_of_found found]
      exact List.isPrefixOf_iff_prefix.mpr (good.below_of_no_links there noLinks straight found)
    | none =>
      rw [← List.append_assoc] at reached ⊢
      rw [encloses_concat_of_none reached]
      exact ih (HostPath.isStraight_concat.mp straight).1

/-- What guest paths are resolved to. On every host, a path that is taken stands for names below the
root, none of them empty, a way or divided, and whatever exists there lies below the root once all
links are followed. On a host without links below the root, a path is refused if it is longer than
it may be, or if it climbs above the root by itself, and for no other reason. -/
theorem translate_of_reached (reached : Reached drive) (guest : List UInt8) :
    (∀ tree path, drive.translate tree guest = .ok path →
      ∃ names, drive.names guest = .ok names ∧ path = drive.below names ∧
        (∀ name ∈ names, name.IsNormal) ∧
        ∀ real, tree.canonical? path = some real → drive.root <+: real) ∧
    ∀ tree : HostTree, tree.IsTree → tree.HasDirectory drive.root →
      (∀ p target, tree.at? p = some (.link target) → ¬drive.root <+: p) → ∀ cause,
        drive.translate tree guest = .error cause ↔
          cause = .overlong ∧ 256 < guest.length ∨
            cause = .outside ∧ guest.length ≤ 256 ∧ drive.ClimbsOut guest := by
  have normal := reached.normal
  constructor
  · intro tree path taken
    unfold translate at taken
    split at taken
    · cases taken
    next names spelled =>
      split at taken
      next enclosed =>
        cases taken
        refine ⟨names, spelled, rfl, normal_names normal spelled, fun real followed => ?_⟩
        obtain ⟨e, found⟩ := exists_of_canonical? followed
        exact prefix_of_found enclosed found
      · cases taken
  · intro tree good there noLinks cause
    rw [← names_eq_error_iff, translate]
    cases spelled : drive.names guest with
    | error cause' =>
      constructor
      · rintro ⟨⟩
        rfl
      · rintro ⟨⟩
        rfl
    | ok names =>
      have plain : ∀ name ∈ names, name.IsPlain :=
        fun name member => (normal_names normal spelled name member).plain
      have enclosed := encloses_of_no_links good there noLinks (isStraight_texts plain)
      dsimp only
      rw [below, if_pos enclosed]
      constructor <;> rintro ⟨⟩

/-- A host with a directory `C` and a directory `SUB` in it. -/
def plainHost : HostTree where
  entries := [(["C", "SUB"], .directory false), (["C"], .directory false)]

def inSub : Drive where
  root := ["C"]
  directory := [[0x53, 0x55, 0x42]]

theorem reached_inSub : Reached inSub := by
  have mounted : mount plainHost [] "/C" = .ok { root := ["C"] } := by decide
  have moved : changeDirectory { root := ["C"] } plainHost [0x53, 0x55, 0x42] = .ok inSub := by
    decide
  exact .moved (.mounted mounted) moved

/-- From `SUB` the path `..\SUB` leads to it, and `..\..\C` leads out of the root. -/
theorem translate_of_reached_inSub :
    Reached inSub ∧ plainHost.IsTree ∧
      (∃ names, inSub.names [0x2e, 0x2e, 0x5c, 0x53, 0x55, 0x42] = .ok names ∧
        ["C", "SUB"] = inSub.below names) ∧
      ["C"] <+: ["C", "SUB"] ∧
      inSub.translate plainHost [0x2e, 0x2e, 0x5c, 0x2e, 0x2e, 0x5c, 0x43] = .error .outside := by
  have good : plainHost.IsTree :=
    HostTree.isTree_of_entries (by decide) (by decide) (by simp [plainHost])
  have there : plainHost.HasDirectory inSub.root := by decide
  have noLinks : ∀ p target, plainHost.at? p = some (.link target) → ¬inSub.root <+: p := by
    intro p target link
    have named : p ≠ [] := by
      rintro rfl
      cases link
    have listed := HostTree.mem_of_at? named link
    simp [plainHost] at listed
  have taken : inSub.translate plainHost [0x2e, 0x2e, 0x5c, 0x53, 0x55, 0x42] =
      .ok ["C", "SUB"] := by decide
  have real : plainHost.canonical? ["C", "SUB"] = some ["C", "SUB"] := by decide
  obtain ⟨names, spelled, path, _, below⟩ :=
    (translate_of_reached reached_inSub _).1 plainHost _ taken
  have climbs : inSub.ClimbsOut [0x2e, 0x2e, 0x5c, 0x2e, 0x2e, 0x5c, 0x43] :=
    ⟨[GuestName.dotDot, GuestName.dotDot], ⟨[[0x43]], by decide⟩, by decide⟩
  have refused := ((translate_of_reached reached_inSub _).2 plainHost good there noLinks
    .outside).mpr (.inr ⟨rfl, by decide, climbs⟩)
  exact ⟨reached_inSub, good, ⟨names, spelled, path⟩, below _ real, refused⟩

end Drive

end AtariTos

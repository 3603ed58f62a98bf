import AtariTos.Proofs.HostChanges
import Mathlib.Data.List.Basic

namespace AtariTos

/-- No name of a path means a way. -/
def HostPath.IsStraight (p : HostPath) : Prop :=
  ∀ n ∈ p, n ≠ "." ∧ n ≠ ".."

theorem HostPath.isStraight_append {p q : HostPath} :
    IsStraight (p ++ q) ↔ IsStraight p ∧ IsStraight q :=
  List.forall_mem_append

theorem HostPath.isStraight_concat {p : HostPath} {n : String} :
    IsStraight (p ++ [n]) ↔ IsStraight p ∧ n ≠ "." ∧ n ≠ ".." := by
  simp only [IsStraight, List.forall_mem_append, List.forall_mem_singleton]

namespace HostTree

variable {tree : HostTree} {root p d : HostPath} {n : String} {follow r : Bool} {e : HostEntry}
  {place : Place} {cause : HostError} {outcome : Except HostError Place}

theorem IsTree.isStraight (good : tree.IsTree) (there : tree.at? p = some e) :
    HostPath.IsStraight p := by
  induction p using List.reverseRecOn generalizing e with
  | nil => exact fun _ h => absurd h List.not_mem_nil
  | append_singleton front n ih =>
    obtain ⟨r, above⟩ := good.parent front n e there
    obtain ⟨dot, up, _⟩ := good.legal front n e there
    exact HostPath.isStraight_concat.mpr ⟨ih above, dot, up⟩

theorem IsTree.holds_of_locate (good : tree.IsTree) (h : tree.locate p follow = .ok place) :
    tree.Holds place :=
  good.holds_of_walk hasDirectory_nil h

theorem IsTree.holds_of_locateText (good : tree.IsTree) {working : HostPath} {text : String}
    (there : tree.HasDirectory working) (h : tree.locateText working text = .ok place) :
    tree.Holds place := by
  unfold locateText at h
  split at h
  · cases h
  · refine good.holds_of_walk ?_ h
    split
    · exact hasDirectory_nil
    · exact there

theorem locate_true_of (h : tree.locate p false = outcome)
    (noLink : ∀ path target, outcome ≠ .ok (.found path (.link target))) :
    tree.locate p true = outcome := by
  subst h
  exact walk_true_eq noLink

theorem locate_true_of_absent (h : tree.locate p false = .ok (.absent d n)) :
    tree.locate p true = .ok (.absent d n) :=
  locate_true_of h fun _ _ same => by cases same

theorem locate_true_of_directory (h : tree.locate p false = .ok (.found d (.directory r))) :
    tree.locate p true = .ok (.found d (.directory r)) :=
  locate_true_of h fun _ _ same => by cases same

theorem locate_true_of_file {id : Nat} (h : tree.locate p false = .ok (.found d (.file id))) :
    tree.locate p true = .ok (.found d (.file id)) :=
  locate_true_of h fun _ _ same => by cases same

theorem locate_true_of_error (h : tree.locate p false = .error cause) :
    tree.locate p true = .error cause :=
  locate_true_of h fun _ _ same => by cases same

theorem IsTree.locate_concat (good : tree.IsTree) (dot : n ≠ ".") (up : n ≠ "..") :
    tree.locate (p ++ [n]) false = (tree.locate p true).bind (tree.enter n) :=
  good.walk_concat hasDirectory_nil dot up

theorem IsTree.locate_concat_of_directory (good : tree.IsTree) (dot : n ≠ ".") (up : n ≠ "..")
    (above : tree.locate p true = .ok (.found d (.directory r))) :
    tree.locate (p ++ [n]) false = tree.visit d n := by
  rw [good.locate_concat dot up, above]
  rfl

theorem IsTree.exists_directory (good : tree.IsTree) (dot : n ≠ ".") (up : n ≠ "..")
    (h : tree.locate (p ++ [n]) false = .ok place) :
    ∃ d r, tree.locate p true = .ok (.found d (.directory r)) ∧ tree.visit d n = .ok place := by
  rw [good.locate_concat dot up] at h
  cases before : tree.locate p true with
  | error cause =>
    rw [before] at h
    cases h
  | ok reached =>
    rw [before] at h
    cases reached with
    | absent d m => cases h
    | found d entry =>
      cases entry with
      | directory r => exact ⟨d, r, rfl, h⟩
      | file id | link target => cases h

theorem visit_eq_ok (h : tree.visit d n = .ok place) :
    place = .absent d n ∧ tree.at? (d ++ [n]) = none ∨
      ∃ e, place = .found (d ++ [n]) e ∧ tree.at? (d ++ [n]) = some e := by
  unfold visit at h
  split at h
  · cases h
  split at h
  · cases h
  split at h
  next free => exact .inl ⟨(Except.ok.inj h).symm, free⟩
  next e there => exact .inr ⟨e, (Except.ok.inj h).symm, there⟩

theorem IsTree.exists_directory_of_absent (good : tree.IsTree) {m : String} (dot : m ≠ ".")
    (up : m ≠ "..") (h : tree.locate (p ++ [m]) false = .ok (.absent d n)) :
    n = m ∧ ∃ r, tree.locate p true = .ok (.found d (.directory r)) := by
  obtain ⟨d', r, above, seen⟩ := good.exists_directory dot up h
  rcases visit_eq_ok seen with ⟨same, _⟩ | ⟨e, same, _⟩
  · obtain ⟨rfl, rfl⟩ := Place.absent.inj same
    exact ⟨rfl, r, above⟩
  · cases same

theorem visit_of_some (name : HostPath.IsName n) (there : tree.at? (d ++ [n]) = some e) :
    tree.visit d n = .ok (.found (d ++ [n]) e) := by
  obtain ⟨_, _, zero, short⟩ := name
  rw [visit, if_neg zero, if_neg (Nat.not_lt_of_le short), there]

theorem visit_eq_of_free (free : tree.at? (d ++ [n]) = none) :
    tree.visit d n = .ok (.absent d n) ∨ ∃ cause, tree.visit d n = .error cause := by
  cases seen : tree.visit d n with
  | error cause => exact .inr ⟨cause, rfl⟩
  | ok place =>
    rcases visit_eq_ok seen with ⟨rfl, _⟩ | ⟨e, _, there⟩
    · exact .inl rfl
    · rw [free] at there
      cases there

theorem IsTree.locate_of_hasDirectory (good : tree.IsTree) (there : tree.HasDirectory p) :
    ∃ r, ∀ follow, tree.locate p follow = .ok (.found p (.directory r)) := by
  induction p using List.reverseRecOn with
  | nil => exact ⟨false, fun _ => rfl⟩
  | append_singleton front n ih =>
    obtain ⟨r, here⟩ := there
    obtain ⟨_, above⟩ := ih (good.parent front n _ here)
    have name := good.legal front n _ here
    have reached := good.locate_concat_of_directory name.1 name.2.1 (above true)
    rw [visit_of_some name here] at reached
    refine ⟨r, fun follow => ?_⟩
    cases follow with
    | false => exact reached
    | true => exact locate_true_of_directory reached

/-- Where no link lies below a directory, no path from there leads elsewhere. -/
theorem IsTree.below_of_no_links (good : tree.IsTree) (there : tree.HasDirectory root)
    (noLinks : ∀ p target, tree.at? p = some (.link target) → ¬root <+: p) {names : List String}
    (straight : HostPath.IsStraight names) (h : tree.locate (root ++ names) follow = .ok place) :
    place.Below root := by
  induction names using List.reverseRecOn generalizing follow place with
  | nil =>
    obtain ⟨r, found⟩ := good.locate_of_hasDirectory there
    rw [List.append_nil, found] at h
    cases h
    exact List.prefix_refl root
  | append_singleton front n ih =>
    obtain ⟨straight, dot, up⟩ := HostPath.isStraight_concat.mp straight
    rw [← List.append_assoc] at h
    have direct : ∀ place, tree.locate (root ++ front ++ [n]) false = .ok place →
        place.Below root := by
      intro place h
      obtain ⟨d, r, above, seen⟩ := good.exists_directory dot up h
      have inside : root <+: d ++ [n] := (ih straight above).trans (List.prefix_append d [n])
      rcases visit_eq_ok seen with ⟨rfl, _⟩ | ⟨e, rfl, _⟩
      · exact inside
      · exact inside
    cases follow with
    | false => exact direct place h
    | true =>
      have followed := locate_true_of (rfl : tree.locate (root ++ front ++ [n]) false = _)
        fun path target found =>
          noLinks path target (good.holds_of_locate found) (direct _ found)
      exact direct place (followed.symm.trans h)

theorem canonical?_of_found (h : tree.locate p true = .ok (.found d e)) :
    tree.canonical? p = some d := by
  rw [canonical?, h, status]

theorem canonical?_of_absent (h : tree.locate p true = .ok (.absent d n)) :
    tree.canonical? p = none := by
  rw [canonical?, h, status]

theorem canonical?_of_error (h : tree.locate p true = .error cause) : tree.canonical? p = none := by
  rw [canonical?, h, status]

theorem IsTree.canonical?_concat_of_none (good : tree.IsTree) (dot : n ≠ ".") (up : n ≠ "..")
    (missing : tree.canonical? p = none) : tree.canonical? (p ++ [n]) = none := by
  cases h : tree.locate (p ++ [n]) false with
  | error cause => exact canonical?_of_error (locate_true_of_error h)
  | ok place =>
    obtain ⟨d, r, before, _⟩ := good.exists_directory dot up h
    rw [canonical?_of_found before] at missing
    cases missing

theorem isDirectory_eq_true_iff :
    tree.isDirectory p = true ↔ ∃ d r, tree.locate p true = .ok (.found d (.directory r)) := by
  unfold isDirectory
  constructor
  · intro h
    split at h
    next d r reached => exact ⟨d, r, reached⟩
    · cases h
  · rintro ⟨d, r, reached⟩
    rw [reached]

theorem lineage_concat (p : HostPath) (n : String) :
    lineage (p ++ [n]) = lineage p ++ [p ++ [n]] := by
  have shorter : (List.range (p.length + 1)).map (p ++ [n]).take =
      (List.range (p.length + 1)).map p.take := by
    refine List.map_congr_left fun k hk => ?_
    have within : k ≤ p.length := Nat.le_of_lt_succ (List.mem_range.mp hk)
    rw [List.take_append_of_le_length within]
  rw [lineage, lineage, List.length_append, List.length_singleton, List.range_succ, List.map_append,
    shorter, List.map_singleton]
  congr 2
  exact List.take_of_length_le (by simp)

end HostTree

namespace GuestName

/-- A name does not mean a way. -/
def IsPlain (name : GuestName) : Prop :=
  name ≠ dot ∧ name ≠ dotDot

theorem text_injective : Function.Injective text := by
  intro a b same
  refine List.map_injective_iff.mpr (fun x y same => ?_) (String.ofList_injective same)
  have number : ∀ byte : UInt8, (Char.ofNat byte.toNat).toNat = byte.toNat := by
    intro byte
    have valid : byte.toNat.isValidChar := Or.inl (Nat.lt_trans byte.toNat_lt (by decide))
    rw [Char.ofNat, dif_pos valid]
    rfl
  exact UInt8.toNat_inj.mp ((number x).symm.trans ((congrArg Char.toNat same).trans (number y)))

theorem IsPlain.text {name : GuestName} (plain : name.IsPlain) :
    name.text ≠ "." ∧ name.text ≠ ".." :=
  ⟨fun same => plain.1 (text_injective same), fun same => plain.2 (text_injective same)⟩

end GuestName

namespace Drive

variable {drive : Drive} {tree : HostTree} {p d : HostPath} {n : String} {e : HostEntry}
  {guest : List UInt8} {names : List GuestName}

theorem mount_eq_ok {working : HostPath} {text : String}
    (h : mount tree working text = .ok drive) :
    ∃ root r, tree.locateText working text = .ok (.found root (.directory r)) ∧
      drive = { root } := by
  unfold mount at h
  cases reached : tree.locateText working text with
  | error cause =>
    rw [reached] at h
    cases h
  | ok place =>
    rw [reached] at h
    cases place with
    | absent d n => cases h
    | found d e =>
      cases e with
      | file id | link target => cases h
      | directory r =>
        cases h
        exact ⟨d, r, rfl, rfl⟩

/-- What holds of every name that is neither empty nor means a way holds of the names below it. -/
theorem forall_descend {P : GuestName → Prop} {start : List GuestName} {segment : GuestName}
    (before : ∀ name ∈ start, P name)
    (new : segment ≠ [] → segment.IsPlain → P segment) (h : descend start segment = some names) :
    ∀ name ∈ names, P name := by
  unfold descend at h
  split at h
  · cases h
    exact before
  next ordinary =>
  split at h
  · split at h
    · cases h
    · cases h
      exact fun name member => before name (List.dropLast_subset _ member)
  next notUp =>
    cases h
    intro name member
    rcases List.mem_append.mp member with early | last
    · exact before name early
    · obtain rfl := List.mem_singleton.mp last
      exact new (fun same => ordinary (.inl same)) ⟨fun same => ordinary (.inr same), notUp⟩

theorem forall_foldlM {P : GuestName → Prop} {start : List GuestName} {segments : List GuestName}
    (before : ∀ name ∈ start, P name)
    (new : ∀ segment ∈ segments, segment ≠ [] → segment.IsPlain → P segment)
    (h : segments.foldlM descend start = some names) : ∀ name ∈ names, P name := by
  induction segments generalizing start with
  | nil =>
    cases h
    exact before
  | cons segment rest ih =>
    obtain ⟨here, later⟩ := List.forall_mem_cons.mp new
    rw [List.foldlM_cons] at h
    obtain ⟨next, descended, h⟩ := Option.bind_eq_some_iff.mp h
    exact ih (forall_descend before here descended) later h

/-- What holds of the current directory, and of whatever name a path has between its separators,
holds of the names that the path spells. -/
theorem forall_names {P : GuestName → Prop} (before : ∀ name ∈ drive.directory, P name)
    (new : ∀ segment ∈ segments (dropLetter guest), segment ≠ [] → segment.IsPlain → P segment)
    (h : drive.names guest = .ok names) : ∀ name ∈ names, P name := by
  unfold Drive.names at h
  split at h
  · cases h
  dsimp only at h
  split at h
  · cases h
  next names' followed =>
    cases h
    refine forall_foldlM ?_ new followed
    split
    · exact fun _ member => absurd member List.not_mem_nil
    · exact before

theorem plain_names (plain : ∀ name ∈ drive.directory, name.IsPlain)
    (h : drive.names guest = .ok names) : ∀ name ∈ names, name.IsPlain :=
  forall_names plain (fun _ _ _ plain => plain) h

theorem isStraight_texts (plain : ∀ name ∈ names, name.IsPlain) :
    HostPath.IsStraight (names.map GuestName.text) := by
  intro n member
  obtain ⟨name, spelled, rfl⟩ := List.mem_map.mp member
  exact (plain name spelled).text

theorem translate_eq_ok (plain : ∀ name ∈ drive.directory, name.IsPlain)
    (h : drive.translate tree guest = .ok p) :
    ∃ names, p = drive.root ++ names ∧ HostPath.IsStraight names ∧
      drive.encloses tree p = true := by
  unfold translate at h
  split at h
  · cases h
  next names spelled =>
    split at h
    next enclosed =>
      cases h
      exact ⟨_, rfl, isStraight_texts (plain_names plain spelled), enclosed⟩
    · cases h

theorem encloses_concat_of_none (missing : tree.canonical? (p ++ [n]) = none) :
    drive.encloses tree (p ++ [n]) = drive.encloses tree p := by
  rw [encloses, encloses, HostTree.lineage_concat, List.reverse_concat, List.findSome?_cons,
    missing]

theorem encloses_of_found (h : tree.locate p true = .ok (.found d e)) :
    drive.encloses tree p = drive.root.isPrefixOf d := by
  have here := HostTree.canonical?_of_found h
  rcases List.eq_nil_or_concat' p with rfl | ⟨front, n, rfl⟩
  · have lineage : HostTree.lineage [] = [[]] := rfl
    rw [encloses, lineage, List.reverse_singleton, List.findSome?_cons, here]
  · rw [encloses, HostTree.lineage_concat, List.reverse_concat, List.findSome?_cons, here]

theorem prefix_of_found (enclosed : drive.encloses tree p = true)
    (h : tree.locate p true = .ok (.found d e)) : drive.root <+: d := by
  rw [encloses_of_found h] at enclosed
  exact List.isPrefixOf_iff_prefix.mp enclosed

/-- A name that is free where an enclosed path ends is free in a directory below the root. -/
theorem prefix_of_absent (good : tree.IsTree) (straight : HostPath.IsStraight p)
    (enclosed : drive.encloses tree p = true) (h : tree.locate p false = .ok (.absent d n)) :
    drive.root <+: d := by
  rcases List.eq_nil_or_concat' p with rfl | ⟨front, m, rfl⟩
  · cases h
  · obtain ⟨_, dot, up⟩ := HostPath.isStraight_concat.mp straight
    obtain ⟨_, r, above⟩ := good.exists_directory_of_absent dot up h
    have missing := HostTree.canonical?_of_absent (HostTree.locate_true_of_absent h)
    rw [encloses_concat_of_none missing] at enclosed
    exact prefix_of_found enclosed above

end Drive

end AtariTos

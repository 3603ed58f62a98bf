import AtariTos.Proofs.FileOperations

namespace AtariTos

namespace HostTree

variable {tree grown : HostTree} {front p q d : HostPath} {n : String} {back : List String}
  {id : Nat} {e : HostEntry} {outcome : Except HostError Unit}

/-- Nothing has been taken away or replaced, and what is new are directories. -/
structure Furnished (tree grown : HostTree) : Prop where
  files : grown.files = tree.files
  kept : ∀ p e, tree.at? p = some e → grown.at? p = some e
  added : ∀ p e, tree.at? p = none → grown.at? p = some e → e = .directory false

namespace Furnished

theorem refl (tree : HostTree) : Furnished tree tree := by
  refine ⟨rfl, fun _ _ there => there, fun p e free there => ?_⟩
  rw [free] at there
  cases there

theorem trans {next : HostTree} (h : Furnished tree next) (h' : Furnished next grown) :
    Furnished tree grown := by
  refine ⟨h'.files.trans h.files, fun p e there => h'.kept p e (h.kept p e there),
    fun p e free there => ?_⟩
  cases between : next.at? p with
  | none => exact h'.added p e between there
  | some e' =>
    obtain rfl := h.added p e' free between
    exact Option.some.inj (there.symm.trans (h'.kept p _ between))

theorem makeDirectory (good : tree.IsTree) (made : tree.makeDirectory p = .ok grown) :
    Furnished tree grown := by
  obtain ⟨d, n, unused, rfl⟩ := makeDirectory_eq_ok made
  obtain ⟨_, _, free⟩ := good.holds_of_locate unused
  have named := concat_ne_nil d n
  refine ⟨rfl, fun q e there => at?_insert_of_some there named free, fun q e free' there => ?_⟩
  rw [at?_insert named] at there
  split at there
  · exact (Option.some.inj there).symm
  · rw [free'] at there
    cases there

theorem makeEach (good : tree.IsTree) (paths : List HostPath) :
    Furnished tree (tree.makeEach paths).2 := by
  induction paths generalizing tree with
  | nil => exact refl tree
  | cons path rest ih =>
    rw [HostTree.makeEach]
    cases made : tree.makeDirectory path with
    | ok grown => exact (makeDirectory good made).trans (ih (good.makeDirectory made).1)
    | error cause =>
      dsimp only
      split
      · exact ih good
      · exact refl tree

end Furnished

theorem IsTree.makeDirectories (good : tree.IsTree)
    (made : tree.makeDirectories p = (outcome, grown)) : grown.IsTree ∧ Furnished tree grown := by
  obtain rfl : (tree.makeEach (lineage p)).2 = grown := congrArg Prod.snd made
  exact ⟨(good.makeEach _).1, .makeEach good _⟩

theorem visit_of_free (name : HostPath.IsName n) (free : tree.at? (d ++ [n]) = none) :
    tree.visit d n = .ok (.absent d n) := by
  obtain ⟨_, _, zero, short⟩ := name
  rw [visit, if_neg zero, if_neg (Nat.not_lt_of_le short), free]

theorem exists_error_of_visit (dot : n ≠ ".") (up : n ≠ "..") (illegal : ¬HostPath.IsName n) :
    ∃ cause, tree.visit d n = .error cause := by
  unfold visit
  split
  · exact ⟨_, rfl⟩
  next zero =>
    split
    · exact ⟨_, rfl⟩
    next short => exact absurd ⟨dot, up, zero, Nat.le_of_not_lt short⟩ illegal

theorem IsVacant.locate_concat (vacant : IsVacant [] tree p) (good : tree.IsTree) (dot : n ≠ ".")
    (up : n ≠ "..") :
    (HostPath.IsName n → ∃ d, tree.locate (p ++ [n]) false = .ok (.absent d n)) ∧
      (¬HostPath.IsName n → ∃ cause, tree.locate (p ++ [n]) false = .error cause) := by
  obtain ⟨d, r, reached, _, empty⟩ := vacant
  rw [good.locate_concat_of_directory dot up reached]
  exact ⟨fun name => ⟨d, visit_of_free name (empty n)⟩, exists_error_of_visit dot up⟩

/-- A directory is made in one that is empty exactly if the host takes its name. -/
theorem IsVacant.makeEach (vacant : IsVacant [] tree p) (good : tree.IsTree) (dot : n ≠ ".")
    (up : n ≠ "..") (made : tree.makeEach [p ++ [n]] = (outcome, grown)) :
    (outcome = .ok () ↔ HostPath.IsName n) ∧ (outcome = .ok () → IsVacant [] grown (p ++ [n])) := by
  obtain ⟨taken, refused⟩ := vacant.locate_concat good dot up
  rw [makeEach_singleton] at made
  by_cases name : HostPath.IsName n
  · obtain ⟨d, unused⟩ := taken name
    have entered : tree.makeDirectory (p ++ [n]) =
        .ok (tree.insert (d ++ [n]) (.directory false)) := by rw [makeDirectory, unused]
    obtain ⟨_, r, reached⟩ := good.exists_directory_of_absent dot up unused
    rw [entered] at made
    obtain ⟨rfl, rfl⟩ := Prod.mk.inj made
    have new := (good.makeDirectory_concat dot up reached List.nil_prefix entered).2
    exact ⟨iff_of_true rfl name, fun _ => new⟩
  · obtain ⟨cause, illegal⟩ := refused name
    have missing : ¬tree.isDirectory (p ++ [n]) = true := by
      rw [isDirectory, locate_true_of_error illegal]
      exact Bool.false_ne_true
    rw [makeDirectory, illegal] at made
    dsimp only at made
    rw [if_neg missing] at made
    obtain ⟨rfl, rfl⟩ := Prod.mk.inj made
    exact ⟨iff_of_false (fun h => by cases h) name, fun h => by cases h⟩

/-- A path leads to a free name and goes on behind it. -/
def Breaks (tree : HostTree) (p : HostPath) (back : List String) : Prop :=
  ∃ front n d, p = front ++ n :: back ∧ tree.locate (front ++ [n]) false = .ok (.absent d n)

theorem Breaks.concat (breaks : tree.Breaks p back) (n : String) :
    tree.Breaks (p ++ [n]) (back ++ [n]) := by
  obtain ⟨front, m, d, rfl, free⟩ := breaks
  exact ⟨front, m, d, by simp, free⟩

theorem IsTree.makeDirectories_of_not_breaks (good : tree.IsTree)
    (straight : HostPath.IsStraight p) (whole : ∀ back, ¬tree.Breaks p back)
    (made : tree.makeDirectories p = (outcome, grown)) : grown = tree := by
  induction p using List.reverseRecOn generalizing outcome grown with
  | nil => exact (Prod.mk.inj made).2.symm
  | append_singleton front n ih =>
    obtain ⟨straight, dot, up⟩ := HostPath.isStraight_concat.mp straight
    rw [makeDirectories_concat] at made
    rcases before : tree.makeDirectories front with ⟨outcome', next⟩
    obtain rfl := ih straight (fun back breaks => whole _ (breaks.concat n)) before
    rw [before] at made
    cases outcome' with
    | error cause => exact (Prod.mk.inj made).2.symm
    | ok _ =>
      dsimp only at made
      rw [makeEach_singleton] at made
      split at made
      next next' entered =>
        obtain ⟨d, m, unused, _⟩ := makeDirectory_eq_ok entered
        obtain ⟨rfl, _⟩ := good.exists_directory_of_absent dot up unused
        exact absurd ⟨front, m, d, rfl, unused⟩ (whole [])
      next => split at made <;> exact (Prod.mk.inj made).2.symm

/-- From the first free name of a path on, directories are made as long as the host takes the names,
and the last one is empty. -/
theorem IsTree.makeDirectories_of_absent_front (good : tree.IsTree)
    (straight : HostPath.IsStraight (front ++ n :: back))
    (free : tree.locate (front ++ [n]) false = .ok (.absent d n))
    (made : tree.makeDirectories (front ++ n :: back) = (outcome, grown)) :
    grown.HasDirectory (d ++ [n]) ∧ (outcome = .ok () ↔ ∀ m ∈ back, HostPath.IsName m) ∧
      (outcome = .ok () → IsVacant [] grown (front ++ n :: back)) := by
  induction back using List.reverseRecOn generalizing outcome grown with
  | nil =>
    obtain ⟨straight, dot, up⟩ := HostPath.isStraight_concat.mp straight
    obtain ⟨_, r, reached⟩ := good.exists_directory_of_absent dot up free
    have above := good.makeDirectories_of_isDirectory straight
      (isDirectory_eq_true_iff.mpr ⟨d, r, reached⟩)
    have entered : tree.makeDirectory (front ++ [n]) =
        .ok (tree.insert (d ++ [n]) (.directory false)) := by
      rw [HostTree.makeDirectory, free]
    rw [makeDirectories_concat, above] at made
    dsimp only at made
    rw [makeEach_singleton, entered] at made
    obtain ⟨rfl, rfl⟩ := Prod.mk.inj made
    have new := (good.makeDirectory_concat dot up reached List.nil_prefix entered).2
    exact ⟨⟨false, at?_insert_self (concat_ne_nil d n)⟩,
      iff_of_true rfl fun _ member => absurd member List.not_mem_nil, fun _ => new⟩
  | append_singleton back m ih =>
    have longer : front ++ n :: (back ++ [m]) = (front ++ n :: back) ++ [m] := by simp
    rw [longer] at straight made ⊢
    obtain ⟨straight, dot, up⟩ := HostPath.isStraight_concat.mp straight
    rw [makeDirectories_concat] at made
    rcases before : tree.makeDirectories (front ++ n :: back) with ⟨outcome', next⟩
    obtain ⟨there, taken, vacant⟩ := ih straight before
    have good' := (good.makeDirectories before).1
    rw [before] at made
    cases outcome' with
    | error cause =>
      obtain ⟨rfl, rfl⟩ := Prod.mk.inj made
      refine ⟨there, iff_of_false (fun h => by cases h) fun all => ?_, fun h => by cases h⟩
      cases taken.mpr (List.forall_mem_append.mp all).1
    | ok _ =>
      dsimp only at made
      obtain ⟨taken', vacant'⟩ := (vacant rfl).makeEach good' dot up made
      have kept := (Furnished.makeEach good' [front ++ n :: back ++ [m]]).kept
      rw [made] at kept
      refine ⟨?_, ?_, vacant'⟩
      · obtain ⟨r, there⟩ := there
        exact ⟨r, kept _ _ there⟩
      · rw [taken', List.forall_mem_append, List.forall_mem_singleton]
        exact (and_iff_right (taken.mp rfl)).symm

/-- A file is created in a directory in which there is nothing exactly if the host takes its
name. -/
theorem IsVacant.createFile (vacant : IsVacant [] tree p) (good : tree.IsTree) (dot : n ≠ ".")
    (up : n ≠ "..") :
    (HostPath.IsName n → ∃ id grown, tree.createFile (p ++ [n]) = .ok (id, grown)) ∧
      (¬HostPath.IsName n → ∃ cause, tree.createFile (p ++ [n]) = .error cause) := by
  obtain ⟨taken, refused⟩ := vacant.locate_concat good dot up
  constructor
  · intro name
    obtain ⟨d, unused⟩ := taken name
    obtain ⟨id, grown, created, _⟩ := createFile_of_absent (locate_true_of_absent unused)
    exact ⟨id, grown, created⟩
  · intro name
    obtain ⟨cause, illegal⟩ := refused name
    exact ⟨cause, by rw [HostTree.createFile, locate_true_of_error illegal]⟩

theorem IsTree.kept_createFile (good : tree.IsTree) (made : tree.createFile p = .ok (id, grown))
    (there : tree.at? q = some e) : grown.at? q = some e := by
  rcases createFile_eq_ok made with ⟨d, _, rfl⟩ | ⟨d, n, unused, _, rfl⟩
  · exact there
  · obtain ⟨_, _, free⟩ := good.holds_of_locate unused
    have there' : (tree.addFile {}).2.at? q = some e := there
    exact at?_insert_of_some there' (concat_ne_nil d n) free

theorem IsTree.locate_createFile (good : tree.IsTree) (made : tree.createFile p = .ok (id, grown)) :
    (∃ d, grown.locate p true = .ok (.found d (.file id))) ∧
      ∀ other, other ≠ id → grown.file other = tree.file other := by
  have kept : ∀ q e, tree.at? q = some e → grown.at? q = some e :=
    fun q e there => good.kept_createFile made there
  rcases createFile_eq_ok made with ⟨d, reached, rfl⟩ | ⟨d, n, unused, rfl, rfl⟩
  · exact ⟨⟨d, walk_of_kept kept good hasDirectory_nil reached⟩,
      fun other apart => file_modifyFile_of_ne apart _⟩
  · have filled : ((tree.addFile {}).2.insert (d ++ [n]) (.file tree.files.size)).at? (d ++ [n]) =
        some (.file tree.files.size) := at?_insert_self (concat_ne_nil d n)
    exact ⟨⟨d ++ [n], walk_of_filled kept filled good hasDirectory_nil unused⟩,
      fun other _ => file_addFile_empty tree other⟩

end HostTree

end AtariTos

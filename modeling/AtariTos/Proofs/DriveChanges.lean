import AtariTos.Proofs.DrivePaths

namespace AtariTos

namespace HostTree

variable {root p d : HostPath} {tree grown : HostTree} {n : String} {r : Bool} {id : Nat}

theorem makeDirectory_eq_ok (h : tree.makeDirectory p = .ok grown) :
    ∃ d n, tree.locate p false = .ok (.absent d n) ∧
      grown = tree.insert (d ++ [n]) (.directory false) := by
  unfold makeDirectory at h
  split at h
  · cases h
  · cases h
  next d n free => exact ⟨d, n, free, (Except.ok.inj h).symm⟩

theorem makeEach_append (xs ys : List HostPath) :
    tree.makeEach (xs ++ ys) =
      match tree.makeEach xs with
      | (.ok _, grown) => grown.makeEach ys
      | failed => failed := by
  induction xs generalizing tree with
  | nil => rfl
  | cons x rest ih =>
    rw [List.cons_append, makeEach, makeEach]
    cases tree.makeDirectory x with
    | ok grown => exact ih
    | error cause =>
      by_cases there : tree.isDirectory x
      · simp only [if_pos there, ih]
      · simp only [if_neg there]

theorem makeDirectories_concat (p : HostPath) (n : String) :
    tree.makeDirectories (p ++ [n]) =
      match tree.makeDirectories p with
      | (.ok _, grown) => grown.makeEach [p ++ [n]]
      | failed => failed := by
  rw [makeDirectories, lineage_concat, makeEach_append, makeDirectories]

theorem removeName_eq_ok (h : tree.removeName p = .ok grown) :
    ∃ d e, tree.locate p false = .ok (.found d e) ∧ (∀ r, e ≠ .directory r) ∧
      grown = tree.erase d := by
  unfold removeName at h
  cases reached : tree.locate p false with
  | error cause =>
    rw [reached] at h
    cases h
  | ok place =>
    rw [reached] at h
    cases place with
    | absent d n => cases h
    | found d e =>
      cases e with
      | directory r => cases h
      | file id | link target =>
        cases h
        exact ⟨d, _, rfl, (fun _ same => by cases same), rfl⟩

/-- A path leads to a directory below a root in which there is nothing. -/
def IsVacant (root : HostPath) (tree : HostTree) (p : HostPath) : Prop :=
  ∃ d r, tree.locate p true = .ok (.found d (.directory r)) ∧ root <+: d ∧
    ∀ n, tree.at? (d ++ [n]) = none

theorem IsTree.makeDirectory_concat (good : tree.IsTree) (dot : n ≠ ".") (up : n ≠ "..")
    (above : tree.locate p true = .ok (.found d (.directory r))) (inside : root <+: d)
    (made : tree.makeDirectory (p ++ [n]) = .ok grown) :
    ChangedBelow root tree grown ∧ IsVacant root grown (p ++ [n]) := by
  obtain ⟨d', n', unused, rfl⟩ := makeDirectory_eq_ok made
  obtain ⟨rfl, r', above'⟩ := good.exists_directory_of_absent dot up unused
  obtain ⟨rfl, _⟩ := Place.found.inj (Except.ok.inj (above.symm.trans above'))
  obtain ⟨name, directory, free⟩ := good.holds_of_locate unused
  have named := concat_ne_nil d n'
  have below := inside.trans (List.prefix_append d [n'])
  have changed := ChangedBelow.insert_directory good name directory free below
  have kept := walk_insert good hasDirectory_nil named free above (.directory false)
  have reached := changed.isTree.locate_concat_of_directory dot up kept
  rw [visit_of_some name (at?_insert_self named)] at reached
  refine ⟨changed, d ++ [n'], false, locate_true_of_directory reached, below, fun m => ?_⟩
  have longer : d ++ [n'] ++ [m] ≠ d ++ [n'] := by simp
  rw [at?_insert_of_ne named longer, good.free_below free]

theorem makeEach_singleton (tree : HostTree) (p : HostPath) :
    tree.makeEach [p] =
      match tree.makeDirectory p with
      | .ok grown => (.ok (), grown)
      | .error cause => if tree.isDirectory p then (.ok (), tree) else (.error cause, tree) := rfl

theorem IsTree.makeDirectories_of_isDirectory (good : tree.IsTree)
    (straight : HostPath.IsStraight p) (there : tree.isDirectory p = true) :
    tree.makeDirectories p = (.ok (), tree) := by
  induction p using List.reverseRecOn with
  | nil => rfl
  | append_singleton front n ih =>
    obtain ⟨straight, dot, up⟩ := HostPath.isStraight_concat.mp straight
    obtain ⟨d, r, reached⟩ := isDirectory_eq_true_iff.mp there
    cases seen : tree.locate (front ++ [n]) false with
    | error cause =>
      rw [locate_true_of_error seen] at reached
      cases reached
    | ok place =>
      obtain ⟨d', r', above, _⟩ := good.exists_directory dot up seen
      rw [makeDirectories_concat, ih straight (isDirectory_eq_true_iff.mpr ⟨d', r', above⟩)]
      dsimp only
      rw [makeEach_singleton]
      cases made : tree.makeDirectory (front ++ [n]) with
      | error cause => exact if_pos there
      | ok grown =>
        obtain ⟨_, _, free, _⟩ := makeDirectory_eq_ok made
        rw [locate_true_of_absent free] at reached
        cases reached

end HostTree

namespace Drive

open HostTree

variable {drive : Drive} {tree grown : HostTree} {p d : HostPath} {n : String}
  {outcome : Except HostError Unit}

theorem makeDirectory_below (good : tree.IsTree) (straight : HostPath.IsStraight p)
    (enclosed : drive.encloses tree p = true) (made : tree.makeDirectory p = .ok grown) :
    ChangedBelow drive.root tree grown := by
  obtain ⟨d, n, unused, rfl⟩ := makeDirectory_eq_ok made
  obtain ⟨name, directory, free⟩ := good.holds_of_locate unused
  have inside := prefix_of_absent good straight enclosed unused
  exact .insert_directory good name directory free (inside.trans (List.prefix_append d [n]))

theorem makeEach_of_enclosed (good : tree.IsTree) (straight : HostPath.IsStraight (p ++ [n]))
    (enclosed : tree.canonical? (p ++ [n]) = none → drive.encloses tree (p ++ [n]) = true)
    (made : tree.makeEach [p ++ [n]] = (outcome, grown)) :
    grown = tree ∨ ChangedBelow drive.root tree grown ∧
      (outcome = .ok () → IsVacant drive.root grown (p ++ [n])) := by
  obtain ⟨_, dot, up⟩ := HostPath.isStraight_concat.mp straight
  rw [makeEach_singleton] at made
  split at made
  next next entered =>
    obtain ⟨_, rfl⟩ := Prod.mk.inj made
    right
    obtain ⟨d, m, unused, _⟩ := makeDirectory_eq_ok entered
    have missing := canonical?_of_absent (locate_true_of_absent unused)
    have inside := prefix_of_absent good straight (enclosed missing) unused
    obtain ⟨_, r, reached⟩ := good.exists_directory_of_absent dot up unused
    have ⟨changed, vacant⟩ := good.makeDirectory_concat dot up reached inside entered
    exact ⟨changed, fun _ => vacant⟩
  next cause refused =>
    left
    split at made <;> exact (Prod.mk.inj made).2.symm

theorem makeEach_of_vacant (good : tree.IsTree) (straight : HostPath.IsStraight (p ++ [n]))
    (vacant : IsVacant drive.root tree p) (made : tree.makeEach [p ++ [n]] = (outcome, grown)) :
    ChangedBelow drive.root tree grown ∧
      (outcome = .ok () → IsVacant drive.root grown (p ++ [n])) := by
  obtain ⟨_, dot, up⟩ := HostPath.isStraight_concat.mp straight
  obtain ⟨d, r, reached, inside, empty⟩ := vacant
  have seen := good.locate_concat_of_directory dot up reached
  rw [makeEach_singleton] at made
  split at made
  next next entered =>
    obtain ⟨_, rfl⟩ := Prod.mk.inj made
    have ⟨changed, vacant⟩ := good.makeDirectory_concat dot up reached inside entered
    exact ⟨changed, fun _ => vacant⟩
  next cause refused =>
    rcases visit_eq_of_free (empty n) with unused | ⟨cause', illegal⟩
    · rw [makeDirectory, seen, unused] at refused
      cases refused
    · have missing : ¬tree.isDirectory (p ++ [n]) = true := by
        rw [isDirectory, locate_true_of_error (seen.trans illegal)]
        exact Bool.false_ne_true
      rw [if_neg missing] at made
      obtain ⟨rfl, rfl⟩ := Prod.mk.inj made
      exact ⟨.refl good, fun h => by cases h⟩

theorem encloses_front (good : tree.IsTree) (dot : n ≠ ".") (up : n ≠ "..")
    (enclosed : tree.canonical? (p ++ [n]) = none → drive.encloses tree (p ++ [n]) = true)
    (missing : tree.canonical? p = none) : drive.encloses tree p = true := by
  have missing' := good.canonical?_concat_of_none dot up missing
  rw [← encloses_concat_of_none missing']
  exact enclosed missing'

theorem makeDirectories_below (good : tree.IsTree) (straight : HostPath.IsStraight p)
    (enclosed : tree.canonical? p = none → drive.encloses tree p = true)
    (made : tree.makeDirectories p = (outcome, grown)) :
    grown = tree ∨ ChangedBelow drive.root tree grown ∧
      (outcome = .ok () → IsVacant drive.root grown p) := by
  induction p using List.reverseRecOn generalizing outcome grown with
  | nil => exact .inl (Prod.mk.inj made).2.symm
  | append_singleton front n ih =>
    obtain ⟨straight', dot, up⟩ := HostPath.isStraight_concat.mp straight
    have enclosed' := encloses_front good dot up enclosed
    rw [makeDirectories_concat] at made
    rcases before : tree.makeDirectories front with ⟨cause | _, next⟩
    · rw [before] at made
      obtain ⟨rfl, rfl⟩ := Prod.mk.inj made
      rcases ih straight' enclosed' before with same | ⟨changed, _⟩
      · exact .inl same
      · exact .inr ⟨changed, fun h => by cases h⟩
    · rw [before] at made
      rcases ih straight' enclosed' before with rfl | ⟨changed, vacant⟩
      · exact makeEach_of_enclosed good straight enclosed made
      · have ⟨changed', vacant'⟩ :=
          makeEach_of_vacant changed.isTree straight (vacant rfl) made
        exact .inr ⟨changed.trans changed', vacant'⟩

theorem makeDirectories_above (good : tree.IsTree) (straight : HostPath.IsStraight p)
    (enclosed : drive.encloses tree p = true)
    (made : tree.makeDirectories p.dropLast = (outcome, grown)) :
    grown = tree ∨ ChangedBelow drive.root tree grown ∧
      (outcome = .ok () → IsVacant drive.root grown p.dropLast) := by
  rcases List.eq_nil_or_concat' p with rfl | ⟨front, n, rfl⟩
  · exact .inl (Prod.mk.inj made).2.symm
  · rw [List.dropLast_concat] at made ⊢
    obtain ⟨straight', dot, up⟩ := HostPath.isStraight_concat.mp straight
    exact makeDirectories_below good straight' (encloses_front good dot up fun _ => enclosed) made

theorem changedBelow_above (good : tree.IsTree) (straight : HostPath.IsStraight p)
    (enclosed : drive.encloses tree p = true)
    (made : tree.makeDirectories p.dropLast = (outcome, grown)) :
    ChangedBelow drive.root tree grown := by
  rcases makeDirectories_above good straight enclosed made with rfl | ⟨changed, _⟩
  · exact .refl good
  · exact changed

/-- With the directories above an enclosed path made, the path leads below the root, unless before
it led to a free name elsewhere. -/
theorem place_below (good : tree.IsTree) (straight : HostPath.IsStraight p)
    (enclosed : drive.encloses tree p = true)
    (inside : ∀ d n, tree.locate p true = .ok (.absent d n) → drive.root <+: d ++ [n])
    (made : tree.makeDirectories p.dropLast = (.ok (), grown)) {place : Place}
    (h : grown.locate p true = .ok place) : place.Below drive.root := by
  have unchanged : grown = tree → place.Below drive.root := by
    rintro rfl
    cases place with
    | found d e => exact prefix_of_found enclosed h
    | absent d n => exact inside d n h
  rcases makeDirectories_above good straight enclosed made with same | ⟨changed, vacant⟩
  · exact unchanged same
  obtain ⟨d, r, reached, below, empty⟩ := vacant rfl
  rcases List.eq_nil_or_concat' p with rfl | ⟨front, n, rfl⟩
  · exact unchanged (Prod.mk.inj made).2.symm
  · rw [List.dropLast_concat] at reached
    obtain ⟨_, dot, up⟩ := HostPath.isStraight_concat.mp straight
    have seen := changed.isTree.locate_concat_of_directory dot up reached
    rcases visit_eq_of_free (empty n) with unused | ⟨cause, illegal⟩
    · rw [locate_true_of_absent (seen.trans unused)] at h
      obtain rfl := Except.ok.inj h
      exact below.trans (List.prefix_append d [n])
    · rw [locate_true_of_error (seen.trans illegal)] at h
      cases h

theorem removeName_below (good : tree.IsTree) (enclosed : drive.encloses tree p = true)
    (inside : ∀ d target, tree.locate p false = .ok (.found d (.link target)) → drive.root <+: d)
    (removed : tree.removeName p = .ok grown) : ChangedBelow drive.root tree grown := by
  obtain ⟨d, e, reached, leaf, rfl⟩ := removeName_eq_ok removed
  have there : tree.at? d = some e := good.holds_of_locate reached
  have below : drive.root <+: d := by
    cases e with
    | directory r => exact absurd rfl (leaf r)
    | file id => exact prefix_of_found enclosed (locate_true_of_file reached)
    | link target => exact inside d target reached
  refine .erase good (fun r directory => ?_) below
  exact leaf r (Option.some.inj (there.symm.trans directory))

end Drive

namespace HostTree

variable {root p d : HostPath} {tree grown : HostTree} {n : String} {id : Nat}

theorem createFile_below (good : tree.IsTree)
    (inside : ∀ place, tree.locate p true = .ok place → place.Below root)
    (made : tree.createFile p = .ok (id, grown)) :
    ChangedBelow root tree grown ∧ grown.OnlyBelow root id := by
  unfold createFile at made
  split at made
  · cases made
  next d file reached =>
    obtain ⟨rfl, rfl⟩ := Prod.mk.inj (Except.ok.inj made)
    have only := good.onlyBelow (good.holds_of_locate reached) (inside _ reached)
    have changed := ChangedBelow.modifyFile good only fun file => { file with content := .empty }
    exact ⟨changed, changed.onlyBelow only⟩
  · cases made
  next d n unused =>
    obtain ⟨rfl, rfl⟩ := Prod.mk.inj (Except.ok.inj made)
    obtain ⟨name, directory, free⟩ := good.holds_of_locate unused
    have below := inside _ unused
    have changed := ChangedBelow.insert_file good name directory free below {}
    exact ⟨changed, changed.isTree.onlyBelow (at?_insert_self (concat_ne_nil d n)) below⟩

theorem fileAt_eq_ok (h : tree.fileAt p = .ok id) :
    ∃ d, tree.locate p true = .ok (.found d (.file id)) := by
  unfold fileAt at h
  cases reached : tree.locate p true with
  | error cause =>
    rw [reached] at h
    cases h
  | ok place =>
    rw [reached] at h
    cases place with
    | absent d n => cases h
    | found d e =>
      cases e with
      | file id' =>
        cases h
        exact ⟨d, rfl⟩
      | directory r | link target => cases h

theorem write_below (good : tree.IsTree) {f moved : OpenFile} {data : List UInt8}
    (only : tree.OnlyBelow root f.file) (h : tree.write f data = .ok (moved, grown)) :
    moved.file = f.file ∧ ChangedBelow root tree grown := by
  unfold write at h
  split at h
  · cases h
    exact ⟨rfl, .refl good⟩
  split at h
  · cases h
  · cases h
    exact ⟨rfl, .modifyFile good only _⟩

theorem createFile_of_absent (h : tree.locate p true = .ok (.absent d n)) :
    ∃ id grown, tree.createFile p = .ok (id, grown) ∧
      grown.at? (d ++ [n]) = some (.file id) := by
  have created : tree.createFile p = .ok (tree.files.size,
      (tree.addFile {}).2.insert (d ++ [n]) (.file tree.files.size)) := by
    rw [createFile, h]
    rfl
  exact ⟨_, _, created, at?_insert_self (concat_ne_nil d n)⟩

theorem IsTree.makeDirectories_of_absent (good : tree.IsTree) (straight : HostPath.IsStraight p)
    (h : tree.locate p true = .ok (.absent d n)) :
    tree.makeDirectories p.dropLast = (.ok (), tree) := by
  rcases List.eq_nil_or_concat' p with rfl | ⟨front, m, rfl⟩
  · rfl
  · rw [List.dropLast_concat]
    obtain ⟨straight', dot, up⟩ := HostPath.isStraight_concat.mp straight
    cases seen : tree.locate (front ++ [m]) false with
    | error cause =>
      rw [locate_true_of_error seen] at h
      cases h
    | ok place =>
      obtain ⟨d', r, above, _⟩ := good.exists_directory dot up seen
      exact good.makeDirectories_of_isDirectory straight'
        (isDirectory_eq_true_iff.mpr ⟨d', r, above⟩)

end HostTree

namespace Drive

open HostTree

variable {drive : Drive} {tree next grown : HostTree} {p : HostPath} {id : Nat}

theorem createFile_below (good : tree.IsTree) (straight : HostPath.IsStraight p)
    (enclosed : drive.encloses tree p = true)
    (inside : ∀ d n, tree.locate p true = .ok (.absent d n) → drive.root <+: d ++ [n])
    (made : tree.makeDirectories p.dropLast = (.ok (), next))
    (created : next.createFile p = .ok (id, grown)) :
    ChangedBelow drive.root next grown ∧ grown.OnlyBelow drive.root id := by
  have changed := changedBelow_above good straight enclosed made
  refine HostTree.createFile_below changed.isTree (fun place reached => ?_) created
  exact place_below good straight enclosed inside made reached

end Drive

end AtariTos

import AtariTos.Host.Files
import Mathlib.Data.List.Basic

namespace AtariTos

/-- A name that something can have: it is not one of those that mean a way, holds no zero, and is
not too long. -/
def HostPath.IsName (n : String) : Prop :=
  n ≠ "." ∧ n ≠ ".." ∧ '\x00' ∉ n.toList ∧ n.utf8ByteSize ≤ nameMax

instance (n : String) : Decidable (HostPath.IsName n) :=
  inferInstanceAs (Decidable (_ ∧ _))

namespace HostTree

variable {tree : HostTree} {p q : HostPath} {entry e : HostEntry} {id : Nat} {n : String}

theorem concat_ne_nil (p : HostPath) (n : String) : p ++ [n] ≠ [] := by
  simp

theorem at?_of_ne_nil (h : p ≠ []) : tree.at? p = tree.entries.lookup p := by
  rw [at?, if_neg h]

theorem mem_of_at? (named : p ≠ []) (h : tree.at? p = some e) : (p, e) ∈ tree.entries := by
  rw [at?_of_ne_nil named] at h
  obtain ⟨front, back, split, _⟩ := List.lookup_eq_some_iff.mp h
  rw [split]
  exact List.mem_append_right front List.mem_cons_self

theorem at?_insert (h : q ≠ []) :
    (tree.insert q entry).at? p = if p = q then some entry else tree.at? p := by
  by_cases root : p = []
  · have other : p ≠ q := fun same => h (same ▸ root)
    rw [if_neg other, root, at?_nil, at?_nil]
  · rw [at?_of_ne_nil root, at?_of_ne_nil root, insert, List.lookup_cons]
    by_cases same : p = q
    · simp [same]
    · have differ : (p == q) = false := by simpa using same
      simp [same, differ]

theorem at?_insert_self (h : q ≠ []) : (tree.insert q entry).at? q = some entry := by
  rw [at?_insert h, if_pos rfl]

theorem at?_insert_of_ne (h : q ≠ []) (other : p ≠ q) :
    (tree.insert q entry).at? p = tree.at? p := by
  rw [at?_insert h, if_neg other]

theorem at?_insert_of_some (there : tree.at? p = some e) (named : q ≠ [])
    (free : tree.at? q = none) :
    (tree.insert q entry).at? p = some e := by
  have other : p ≠ q := by
    rintro rfl
    rw [free] at there
    cases there
  rw [at?_insert_of_ne named other, there]

theorem lookup_filter_of_ne {entries : List (HostPath × HostEntry)} (other : p ≠ q) :
    (entries.filter (·.1 ≠ q)).lookup p = entries.lookup p := by
  induction entries with
  | nil => rfl
  | cons first rest ih =>
    obtain ⟨path, entry⟩ := first
    by_cases gone : path = q
    · have differ : (p == path) = false := by
        rw [gone]
        simpa using other
      rw [List.filter_cons_of_neg (by simp [gone]), ih, List.lookup_cons, differ]
    · rw [List.filter_cons_of_pos (by simp [gone]), List.lookup_cons, List.lookup_cons, ih]

theorem at?_erase_of_ne (other : p ≠ q) : (tree.erase q).at? p = tree.at? p := by
  by_cases root : p = []
  · rw [root, at?_nil, at?_nil]
  · rw [at?_of_ne_nil root, at?_of_ne_nil root, erase, lookup_filter_of_ne other]

theorem at?_erase_self (named : q ≠ []) : (tree.erase q).at? q = none := by
  rw [at?_of_ne_nil named, erase, List.lookup_eq_none_iff]
  intro entry member
  have other : entry.1 ≠ q := by simpa using (List.mem_filter.mp member).2
  simpa using other.symm

theorem at?_of_erase (h : (tree.erase q).at? p = some e) : tree.at? p = some e := by
  by_cases root : p = []
  · rw [root, at?_nil] at h ⊢
    exact h
  by_cases same : p = q
  · rw [same, at?_erase_self (same ▸ root)] at h
    cases h
  · rwa [at?_erase_of_ne same] at h

theorem file_modifyFile_of_ne {other : Nat} (h : other ≠ id) (change : HostFile → HostFile) :
    (tree.modifyFile id change).file other = tree.file other := by
  simp only [file, modifyFile, Array.getD_eq_getD_getElem?, Array.getElem?_modify, Ne.symm h,
    if_false]

theorem file_addFile {added : HostFile} (h : id < tree.files.size) :
    (tree.addFile added).2.file id = tree.file id := by
  simp only [file, addFile, Array.getD_eq_getD_getElem?, Array.getElem?_push, Nat.ne_of_lt h,
    if_false]

/-- A path names a directory itself, not a link to one. -/
def HasDirectory (tree : HostTree) (p : HostPath) : Prop :=
  ∃ r, tree.at? p = some (.directory r)

instance (tree : HostTree) (p : HostPath) : Decidable (tree.HasDirectory p) :=
  inferInstanceAs (Decidable (∃ r, tree.at? p = some (.directory r)))

theorem hasDirectory_nil : tree.HasDirectory [] :=
  ⟨false, tree.at?_nil⟩

/-- A tree of directories, files and links: whatever exists has a name and lies in a directory, and
every file has an identity and just one path. -/
structure IsTree (tree : HostTree) : Prop where
  legal : ∀ p n entry, tree.at? (p ++ [n]) = some entry → HostPath.IsName n
  parent : ∀ p n entry, tree.at? (p ++ [n]) = some entry → tree.HasDirectory p
  known : ∀ p id, tree.at? p = some (.file id) → id < tree.files.size
  single : ∀ p q id, tree.at? p = some (.file id) → tree.at? q = some (.file id) → p = q

theorem isTree_of_entries (legal : ∀ x ∈ tree.entries, ∀ n ∈ x.1.getLast?, HostPath.IsName n)
    (parent : ∀ x ∈ tree.entries, tree.HasDirectory x.1.dropLast)
    (noFile : ∀ x ∈ tree.entries, ∀ id, x.2 ≠ .file id) : tree.IsTree := by
  have unnamed : ∀ p id, tree.at? p ≠ some (.file id) := by
    intro p id h
    by_cases root : p = []
    · rw [root, at?_nil] at h
      cases h
    · exact noFile _ (mem_of_at? root h) id rfl
  refine ⟨fun p n e h => ?_, fun p n e h => ?_, fun p id h => absurd h (unnamed p id),
    fun p q id h => absurd h (unnamed p id)⟩
  · exact legal _ (mem_of_at? (concat_ne_nil p n) h) n List.getLast?_concat
  · have directory := parent _ (mem_of_at? (concat_ne_nil p n) h)
    rwa [List.dropLast_concat] at directory

theorem IsTree.free_below (good : tree.IsTree) (free : tree.at? p = none) :
    tree.at? (p ++ [n]) = none := by
  cases found : tree.at? (p ++ [n]) with
  | none => rfl
  | some entry =>
    obtain ⟨r, directory⟩ := good.parent p n entry found
    rw [free] at directory
    cases directory

theorem IsTree.dropLast (good : tree.IsTree) (h : tree.HasDirectory p) :
    tree.HasDirectory p.dropLast := by
  rcases List.eq_nil_or_concat' p with rfl | ⟨front, n, rfl⟩
  · exact h
  · obtain ⟨r, h⟩ := h
    rw [List.dropLast_concat]
    exact good.parent front n _ h

theorem HasDirectory.insert (h : tree.HasDirectory q) (named : p ≠ []) (free : tree.at? p = none)
    (entry : HostEntry) : (tree.insert p entry).HasDirectory q := by
  obtain ⟨r, there⟩ := h
  exact ⟨r, at?_insert_of_some there named free⟩

theorem HasDirectory.erase (h : tree.HasDirectory p)
    (leaf : ∀ r, tree.at? q ≠ some (.directory r)) : (tree.erase q).HasDirectory p := by
  obtain ⟨r, there⟩ := h
  have other : p ≠ q := fun same => leaf r (same ▸ there)
  exact ⟨r, (at?_erase_of_ne other).trans there⟩

/-- A name in a directory gets an entry. A file must not have a name yet. -/
theorem IsTree.insert (good : tree.IsTree) (name : HostPath.IsName n)
    (directory : tree.HasDirectory p) (free : tree.at? (p ++ [n]) = none)
    (fresh : ∀ id, entry = .file id → id < tree.files.size ∧ ∀ q, tree.at? q ≠ some (.file id)) :
    (tree.insert (p ++ [n]) entry).IsTree := by
  have named := concat_ne_nil p n
  refine ⟨fun q m e h => ?_, fun q m e h => ?_, fun q id h => ?_, fun q q' id h h' => ?_⟩
  · by_cases here : q ++ [m] = p ++ [n]
    · obtain ⟨_, last⟩ := List.append_inj' here rfl
      exact List.singleton_inj.mp last ▸ name
    · rw [at?_insert_of_ne named here] at h
      exact good.legal q m e h
  · by_cases here : q ++ [m] = p ++ [n]
    · obtain ⟨rfl, _⟩ := List.append_inj' here rfl
      exact directory.insert named free entry
    · rw [at?_insert_of_ne named here] at h
      exact (good.parent q m e h).insert named free entry
  · by_cases here : q = p ++ [n]
    · rw [here, at?_insert_self named] at h
      exact (fresh id (Option.some.inj h)).1
    · rw [at?_insert_of_ne named here] at h
      exact good.known q id h
  · by_cases here : q = p ++ [n]
    · by_cases here' : q' = p ++ [n]
      · rw [here, here']
      · rw [here, at?_insert_self named] at h
        rw [at?_insert_of_ne named here'] at h'
        exact absurd h' ((fresh id (Option.some.inj h)).2 q')
    · rw [at?_insert_of_ne named here] at h
      by_cases here' : q' = p ++ [n]
      · rw [here', at?_insert_self named] at h'
        exact absurd h ((fresh id (Option.some.inj h')).2 q)
      · rw [at?_insert_of_ne named here'] at h'
        exact good.single q q' id h h'

theorem IsTree.addFile (good : tree.IsTree) (added : HostFile) : (tree.addFile added).2.IsTree := by
  refine ⟨good.legal, good.parent, fun q id h => ?_, good.single⟩
  have := good.known q id h
  simp only [HostTree.addFile, Array.size_push]
  omega

theorem IsTree.modifyFile (good : tree.IsTree) (id : Nat) (change : HostFile → HostFile) :
    (tree.modifyFile id change).IsTree := by
  refine ⟨good.legal, good.parent, fun q other h => ?_, good.single⟩
  have := good.known q other h
  simpa only [HostTree.modifyFile, Array.size_modify] using this

theorem IsTree.erase (good : tree.IsTree) (leaf : ∀ r, tree.at? q ≠ some (.directory r)) :
    (tree.erase q).IsTree := by
  refine ⟨fun p n e h => good.legal p n e (at?_of_erase h), fun p n e h => ?_, fun p id h => ?_,
    fun p p' id h h' => ?_⟩
  · exact (good.parent p n e (at?_of_erase h)).erase leaf
  · exact good.known p id (at?_of_erase h)
  · exact good.single p p' id (at?_of_erase h) (at?_of_erase h')

end HostTree

end AtariTos

import AtariTos.Drive
import AtariTos.Proofs.HostWalk
import Mathlib.Data.List.Induction

namespace AtariTos

/-- A place is below a root, or would be once its name is given. -/
def Place.Below (root : HostPath) : Place → Prop
  | .found path _ => root <+: path
  | .absent directory n => root <+: directory ++ [n]

namespace HostTree

variable {root p q d : HostPath} {tree before next after : HostTree} {n : String} {id : Nat}

/-- Outside a root no path is given, taken away or gets something else, and no file there is
changed. -/
structure SameOutside (root : HostPath) (before after : HostTree) : Prop where
  entries : ∀ p, ¬root <+: p → after.at? p = before.at? p
  contents : ∀ p id, ¬root <+: p → before.at? p = some (.file id) → after.file id = before.file id

/-- A change below a root. No file that is there gets another path by it, no link is made, and no
directory goes. -/
structure ChangedBelow (root : HostPath) (before after : HostTree) : Prop extends
    SameOutside root before after where
  isTree : after.IsTree
  size : before.files.size ≤ after.files.size
  paths : ∀ p id, id < before.files.size → after.at? p = some (.file id) →
    before.at? p = some (.file id)
  links : ∀ p target, after.at? p = some (.link target) → before.at? p = some (.link target)
  directories : ∀ p, before.HasDirectory p → after.HasDirectory p

/-- A file has no path outside a root. -/
def OnlyBelow (root : HostPath) (tree : HostTree) (id : Nat) : Prop :=
  id < tree.files.size ∧ ∀ p, tree.at? p = some (.file id) → root <+: p

theorem IsTree.onlyBelow (good : tree.IsTree) (there : tree.at? p = some (.file id))
    (inside : root <+: p) : tree.OnlyBelow root id :=
  ⟨good.known p id there, fun q h => good.single p q id there h ▸ inside⟩

namespace ChangedBelow

theorem refl (good : tree.IsTree) : ChangedBelow root tree tree :=
  ⟨⟨fun _ _ => rfl, fun _ _ _ _ => rfl⟩, good, Nat.le_refl _, fun _ _ _ h => h, fun _ _ h => h,
    fun _ h => h⟩

theorem trans (h : ChangedBelow root before next) (h' : ChangedBelow root next after) :
    ChangedBelow root before after := by
  refine ⟨⟨fun p outside => ?_, fun p id outside there => ?_⟩, h'.isTree,
    Nat.le_trans h.size h'.size, fun p id known there => ?_,
    fun p target there => h.links p target (h'.links p target there),
    fun p there => h'.directories p (h.directories p there)⟩
  · rw [h'.entries p outside, h.entries p outside]
  · have there' := (h.entries p outside).trans there
    rw [h'.contents p id outside there', h.contents p id outside there]
  · exact h.paths p id known (h'.paths p id (Nat.lt_of_lt_of_le known h.size) there)

theorem onlyBelow (h : ChangedBelow root before after) (only : before.OnlyBelow root id) :
    after.OnlyBelow root id :=
  ⟨Nat.lt_of_lt_of_le only.1 h.size, fun p there => only.2 p (h.paths p id only.1 there)⟩

theorem insert_directory (good : tree.IsTree) (name : HostPath.IsName n)
    (directory : tree.HasDirectory d) (free : tree.at? (d ++ [n]) = none)
    (inside : root <+: d ++ [n]) :
    ChangedBelow root tree (tree.insert (d ++ [n]) (.directory false)) := by
  have named := concat_ne_nil d n
  have kept : ∀ p e, e ≠ .directory false →
      (tree.insert (d ++ [n]) (.directory false)).at? p = some e → tree.at? p = some e := by
    intro p e other there
    rw [at?_insert named] at there
    split at there
    · exact absurd (Option.some.inj there).symm other
    · exact there
  refine ⟨⟨fun p outside => ?_, fun _ _ _ _ => rfl⟩, ?_, Nat.le_refl _, fun p id _ there => ?_,
    fun p target there => ?_, fun p there => there.insert named free _⟩
  · exact at?_insert_of_ne named fun same => outside (same ▸ inside)
  · exact good.insert name directory free (fun _ h => by cases h)
  · exact kept p _ HostEntry.noConfusion there
  · exact kept p _ HostEntry.noConfusion there

theorem insert_file (good : tree.IsTree) (name : HostPath.IsName n)
    (directory : tree.HasDirectory d) (free : tree.at? (d ++ [n]) = none)
    (inside : root <+: d ++ [n]) (added : HostFile) :
    ChangedBelow root tree
      ((tree.addFile added).2.insert (d ++ [n]) (.file (tree.addFile added).1)) := by
  have named := concat_ne_nil d n
  have unused : ∀ q, tree.at? q ≠ some (.file tree.files.size) :=
    fun q there => Nat.lt_irrefl _ (good.known q _ there)
  have larger : (tree.addFile added).2.files.size = tree.files.size + 1 := Array.size_push _
  refine ⟨⟨fun p outside => ?_, fun p id _ there => ?_⟩, ?_, ?_, fun p id known there => ?_,
    fun p target there => ?_, fun p there => HasDirectory.insert there named free _⟩
  · exact at?_insert_of_ne named fun same => outside (same ▸ inside)
  · exact file_addFile (good.known p id there)
  · refine (good.addFile added).insert name directory free fun id h => ?_
    obtain rfl : tree.files.size = id := HostEntry.file.inj h
    exact ⟨by omega, unused⟩
  · change tree.files.size ≤ (tree.addFile added).2.files.size
    omega
  · rw [at?_insert named] at there
    split at there
    · obtain rfl : tree.files.size = id := HostEntry.file.inj (Option.some.inj there)
      exact absurd known (Nat.lt_irrefl _)
    · exact there
  · rw [at?_insert named] at there
    split at there
    · cases there
    · exact there

theorem modifyFile (good : tree.IsTree) (only : tree.OnlyBelow root id)
    (change : HostFile → HostFile) : ChangedBelow root tree (tree.modifyFile id change) := by
  refine ⟨⟨fun _ _ => rfl, fun p other outside there => ?_⟩, good.modifyFile id change, ?_,
    fun _ _ _ h => h, fun _ _ h => h, fun _ h => h⟩
  · have differ : other ≠ id := by
      rintro rfl
      exact outside (only.2 p there)
    exact file_modifyFile_of_ne differ change
  · exact Nat.le_of_eq (Array.size_modify ..).symm

theorem erase (good : tree.IsTree) (leaf : ∀ r, tree.at? q ≠ some (.directory r))
    (inside : root <+: q) : ChangedBelow root tree (tree.erase q) :=
  ⟨⟨fun _ outside => at?_erase_of_ne fun same => outside (same ▸ inside), fun _ _ _ _ => rfl⟩,
    good.erase leaf, Nat.le_refl _, fun _ _ _ there => at?_of_erase there,
    fun _ _ there => at?_of_erase there, fun _ there => there.erase leaf⟩

end ChangedBelow

end HostTree

end AtariTos

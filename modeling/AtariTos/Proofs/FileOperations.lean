import AtariTos.Proofs.DriveChanges
import AtariTos.Proofs.FileContents
import Mathlib.Logic.Function.Basic

namespace AtariTos

namespace HostTree

variable {tree grown : HostTree} {p : HostPath} {id : Nat}

def bytes (tree : HostTree) (id : Nat) : List UInt8 :=
  (tree.file id).content.bytes

theorem bytes_of_files (same : grown.files = tree.files) : grown.bytes = tree.bytes := by
  funext id
  rw [bytes, bytes, file, file, same]

theorem file_modifyFile_self (known : id < tree.files.size) (change : HostFile → HostFile) :
    (tree.modifyFile id change).file id = change (tree.file id) := by
  simp [file, modifyFile, known, Array.getElem_modify_self]

theorem bytes_modifyFile (known : id < tree.files.size) (change : HostFile → HostFile) :
    (tree.modifyFile id change).bytes =
      Function.update tree.bytes id (change (tree.file id)).content.bytes := by
  funext other
  by_cases same : other = id
  · rw [same, Function.update_self, bytes, file_modifyFile_self known]
  · rw [Function.update_of_ne same, bytes, bytes, file_modifyFile_of_ne same]

theorem file_addFile_empty (tree : HostTree) (id : Nat) :
    (tree.addFile {}).2.file id = tree.file id := by
  by_cases old : id < tree.files.size
  · exact file_addFile old
  · have beyond : tree.files.size ≤ id := by omega
    simp only [file, addFile, Array.getD_eq_getD_getElem?, Array.getElem?_push,
      Array.getElem?_eq_none beyond]
    split <;> rfl

theorem bytes_of_unknown (unknown : tree.files.size ≤ id) : tree.bytes id = [] := by
  rw [bytes, file, Array.getD_eq_getD_getElem?, Array.getElem?_eq_none unknown]
  rfl

theorem IsTree.makeDirectory (good : tree.IsTree) (made : tree.makeDirectory p = .ok grown) :
    grown.IsTree ∧ grown.files = tree.files := by
  obtain ⟨d, n, unused, rfl⟩ := makeDirectory_eq_ok made
  obtain ⟨name, directory, free⟩ := good.holds_of_locate unused
  exact ⟨good.insert name directory free (fun _ h => by cases h), rfl⟩

theorem IsTree.makeEach (good : tree.IsTree) (paths : List HostPath) :
    (tree.makeEach paths).2.IsTree ∧ (tree.makeEach paths).2.files = tree.files := by
  induction paths generalizing tree with
  | nil => exact ⟨good, rfl⟩
  | cons path rest ih =>
    rw [HostTree.makeEach]
    cases made : tree.makeDirectory path with
    | ok grown =>
      obtain ⟨good', same⟩ := good.makeDirectory made
      obtain ⟨good'', same'⟩ := ih good'
      exact ⟨good'', same'.trans same⟩
    | error cause =>
      dsimp only
      split
      · exact ih good
      · exact ⟨good, rfl⟩

theorem createFile_eq_ok (h : tree.createFile p = .ok (id, grown)) :
    (∃ d, tree.locate p true = .ok (.found d (.file id)) ∧
      grown = tree.modifyFile id fun file => { file with content := .empty }) ∨
    ∃ d n, tree.locate p true = .ok (.absent d n) ∧ id = tree.files.size ∧
      grown = (tree.addFile {}).2.insert (d ++ [n]) (.file id) := by
  unfold createFile at h
  split at h
  · cases h
  next d file reached =>
    cases h
    exact .inl ⟨d, reached, rfl⟩
  · cases h
  next d n unused =>
    cases h
    exact .inr ⟨d, n, unused, rfl, rfl⟩

theorem IsTree.createFile (good : tree.IsTree) (made : tree.createFile p = .ok (id, grown)) :
    grown.IsTree ∧ id < grown.files.size ∧ tree.files.size ≤ grown.files.size := by
  rcases createFile_eq_ok made with ⟨d, reached, rfl⟩ | ⟨d, n, unused, rfl, rfl⟩
  · have known := good.known d id (good.holds_of_locate reached)
    have size : (tree.modifyFile id fun file => { file with content := .empty }).files.size =
        tree.files.size := Array.size_modify ..
    exact ⟨good.modifyFile id _, by omega, by omega⟩
  · obtain ⟨name, directory, free⟩ := good.holds_of_locate unused
    have unnamed : ∀ q, tree.at? q ≠ some (.file tree.files.size) :=
      fun q there => Nat.lt_irrefl _ (good.known q _ there)
    have size : (tree.addFile {}).2.files.size = tree.files.size + 1 := Array.size_push _
    refine ⟨(good.addFile {}).insert name directory free fun id same => ?_, ?_, ?_⟩
    · obtain rfl : tree.files.size = id := HostEntry.file.inj same
      exact ⟨by omega, unnamed⟩
    · change tree.files.size < (tree.addFile {}).2.files.size
      omega
    · change tree.files.size ≤ (tree.addFile {}).2.files.size
      omega

theorem IsTree.file_createFile (good : tree.IsTree) (made : tree.createFile p = .ok (id, grown))
    (other : Nat) : grown.file other = tree.file other ∨ (grown.file other).content = .empty := by
  rcases createFile_eq_ok made with ⟨d, reached, rfl⟩ | ⟨d, n, unused, rfl, rfl⟩
  · have known := good.known d id (good.holds_of_locate reached)
    by_cases same : other = id
    · right
      rw [same, file_modifyFile_self known]
    · exact .inl (file_modifyFile_of_ne same _)
  · exact .inl (file_addFile_empty tree other)

theorem IsTree.bytes_createFile (good : tree.IsTree)
    (made : tree.createFile p = .ok (id, grown)) :
    grown.bytes = Function.update tree.bytes id [] := by
  rcases createFile_eq_ok made with ⟨d, reached, rfl⟩ | ⟨d, n, unused, rfl, rfl⟩
  · exact bytes_modifyFile (good.known d id (good.holds_of_locate reached)) _
  · have same : ((tree.addFile {}).2.insert (d ++ [n]) (.file tree.files.size)).bytes =
        tree.bytes := funext fun other => congrArg (·.content.bytes) (file_addFile_empty tree other)
    rw [same, ← bytes_of_unknown (Nat.le_refl tree.files.size), Function.update_eq_self]

theorem IsTree.removeName (good : tree.IsTree) (removed : tree.removeName p = .ok grown) :
    grown.IsTree ∧ grown.files = tree.files := by
  obtain ⟨d, e, reached, leaf, rfl⟩ := removeName_eq_ok removed
  have there : tree.at? d = some e := good.holds_of_locate reached
  exact ⟨good.erase fun r directory => leaf r (Option.some.inj (there.symm.trans directory)), rfl⟩

theorem read_eq_ok {f moved : OpenFile} {count : Nat} {data : List UInt8}
    (h : tree.read f count = .ok (data, moved)) :
    data = (tree.file f.file).content.read f.position count ∧
      moved = { f with position := f.position + data.length } := by
  unfold read at h
  split at h
  next none =>
    cases h
    exact ⟨by simp [Content.read, none], rfl⟩
  split at h
  · cases h
  · cases h
    exact ⟨rfl, rfl⟩

theorem length_of_read {f moved : OpenFile} {count : Nat} {data : List UInt8}
    (h : tree.read f count = .ok (data, moved)) : data.length ≤ count := by
  obtain ⟨rfl, _⟩ := read_eq_ok h
  rw [Content.length_read]
  exact Nat.min_le_left _ _

theorem write_eq_ok {f moved : OpenFile} {data : List UInt8}
    (h : tree.write f data = .ok (moved, grown)) :
    moved = { f with position := f.position + data.length } ∧
      grown = if data = [] then tree else tree.modifyFile f.file fun file =>
        { file with content := file.content.write f.position data } := by
  unfold write at h
  split at h
  next none =>
    cases h
    rw [List.isEmpty_iff] at none
    subst none
    exact ⟨rfl, rfl⟩
  next some =>
    rw [List.isEmpty_iff] at some
    split at h
    · cases h
    · cases h
      exact ⟨rfl, (if_neg some).symm⟩

theorem exists_read (tree : HostTree) {f : OpenFile} (readable : f.readable = true) (count : Nat) :
    ∃ data moved, tree.read f count = .ok (data, moved) := by
  unfold read
  split
  · exact ⟨_, _, rfl⟩
  · rw [readable]
    exact ⟨_, _, rfl⟩

theorem exists_write (tree : HostTree) {f : OpenFile} (writable : f.writable = true)
    (data : List UInt8) : ∃ moved grown, tree.write f data = .ok (moved, grown) := by
  unfold write
  split
  · exact ⟨_, _, rfl⟩
  · rw [writable]
    exact ⟨_, _, rfl⟩

/-- What an offset counts from in a file of a length. -/
def seekBase (length : Nat) (f : OpenFile) : SeekOrigin → Nat
  | .start => 0
  | .current => f.position
  | .finish => length

theorem seek_eq_ok {f moved : OpenFile} {origin : SeekOrigin} {offset : Int}
    (h : tree.seek f origin offset = .ok moved) :
    ∃ position : Nat, (position : Int) = seekBase (tree.bytes f.file).length f origin + offset ∧
      moved = { f with position } := by
  have length : (tree.bytes f.file).length = (tree.file f.file).content.size :=
    Content.length_bytes _
  unfold seek at h
  cases origin with
  | start | current | finish =>
    dsimp only at h
    split at h
    · cases h
    next reached =>
      cases h
      refine ⟨_, ?_, rfl⟩
      dsimp only [seekBase]
      omega

end HostTree

end AtariTos

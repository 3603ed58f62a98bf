import AtariTos.Host.Content

namespace AtariTos

/-- The names from the root of the host down; the root is the empty path. -/
abbrev HostPath := List String

def HostPath.render (path : HostPath) : String :=
  "/" ++ "/".intercalate path

inductive HostEntry where
  | directory (readOnly : Bool)
  | file (id : Nat)
  | link (target : String)
deriving DecidableEq, Repr

structure HostFile where
  content : Content := {}
  /-- Seconds since the start of 1970. -/
  modified : Int := 0
  readOnly : Bool := false
deriving DecidableEq, Repr

/-- Files have an identity of their own, so that an open file outlasts its name. -/
structure HostTree where
  entries : List (HostPath × HostEntry) := []
  files : Array HostFile := #[]
deriving DecidableEq, Repr

namespace HostTree

def empty : HostTree := {}

/-- What a path names, with no link followed. -/
def at? (tree : HostTree) (path : HostPath) : Option HostEntry :=
  if path = [] then some (.directory false) else tree.entries.lookup path

def insert (tree : HostTree) (path : HostPath) (entry : HostEntry) : HostTree :=
  { tree with entries := (path, entry) :: tree.entries }

def erase (tree : HostTree) (path : HostPath) : HostTree :=
  { tree with entries := tree.entries.filter (·.1 ≠ path) }

def file (tree : HostTree) (id : Nat) : HostFile :=
  tree.files.getD id {}

/-- Adds a file under a new identity; it has no name yet. -/
def addFile (tree : HostTree) (file : HostFile) : Nat × HostTree :=
  (tree.files.size, { tree with files := tree.files.push file })

def modifyFile (tree : HostTree) (id : Nat) (change : HostFile → HostFile) : HostTree :=
  { tree with files := tree.files.modify id change }

theorem at?_nil (tree : HostTree) : tree.at? [] = some (.directory false) := by
  simp [at?]

end HostTree

end AtariTos

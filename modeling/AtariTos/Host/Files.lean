import AtariTos.Host.Walk

namespace AtariTos

structure OpenFile where
  file : Nat
  path : HostPath
  position : Nat := 0
  readable : Bool
  writable : Bool
deriving DecidableEq, Repr

inductive SeekOrigin where
  | start
  | current
  | finish
deriving DecidableEq, Repr

namespace HostTree

def fileAt (tree : HostTree) (path : HostPath) : Except HostError Nat :=
  match status (tree.locate path true) with
  | .error cause => .error cause
  | .ok (_, .file id) => .ok id
  | .ok (_, _) => .error .isDirectory

/-- Makes the file that a path leads to empty, or a new one where the path leads to a free name,
also behind a link. -/
def createFile (tree : HostTree) (path : HostPath) : Except HostError (Nat × HostTree) :=
  match tree.locate path true with
  | .error cause => .error cause
  | .ok (.found _ (.file id)) =>
    .ok (id, tree.modifyFile id fun file => { file with content := .empty })
  | .ok (.found _ _) => .error .isDirectory
  | .ok (.absent directory name) =>
    let (id, grown) := tree.addFile {}
    .ok (id, grown.insert (directory ++ [name]) (.file id))

def makeDirectory (tree : HostTree) (path : HostPath) : Except HostError HostTree :=
  match tree.locate path false with
  | .error cause => .error cause
  | .ok (.found _ _) => .error .alreadyExists
  | .ok (.absent directory name) =>
    .ok (tree.insert (directory ++ [name]) (.directory false))

/-- The paths above a path, the root of the host first and the path itself last. -/
def lineage (path : HostPath) : List HostPath :=
  (List.range (path.length + 1)).map path.take

/-- Makes directories one after the other, passing over those that are there, up to the first one
that cannot be made. -/
def makeEach (tree : HostTree) : List HostPath → Except HostError Unit × HostTree
  | [] => (.ok (), tree)
  | path :: rest =>
    match tree.makeDirectory path with
    | .ok grown => makeEach grown rest
    | .error cause =>
      if tree.isDirectory path then makeEach tree rest else (.error cause, tree)

def makeDirectories (tree : HostTree) (path : HostPath) : Except HostError Unit × HostTree :=
  tree.makeEach (lineage path)

def makeLink (tree : HostTree) (path : HostPath) (target : String) : Except HostError HostTree :=
  match tree.locate path false with
  | .error cause => .error cause
  | .ok (.found _ _) => .error .alreadyExists
  | .ok (.absent directory name) => .ok (tree.insert (directory ++ [name]) (.link target))

/-- All that lies below a directory, with names from there down, in the order of their texts. -/
def listing (tree : HostTree) (directory : HostPath) : List (String × HostEntry) :=
  let below := tree.entries.filter fun (path, _) =>
    directory.isPrefixOf path && directory.length < path.length
  let named := below.map fun (path, entry) =>
    ("/".intercalate (path.drop directory.length), entry)
  named.mergeSort fun (a, _) (b, _) => !(b < a)

/-- Removes a file's or a link's name. The file itself lasts while it is open. -/
def removeName (tree : HostTree) (path : HostPath) : Except HostError HostTree :=
  match status (tree.locate path false) with
  | .error cause => .error cause
  | .ok (_, .directory _) => .error .isDirectory
  | .ok (reached, _) => .ok (tree.erase reached)

def isReadOnly (tree : HostTree) : HostEntry → Bool
  | .directory readOnly => readOnly
  | .file id => (tree.file id).readOnly
  | .link _ => false

/-- Reads at the position of an open file and moves it on. Reading nothing needs no right. -/
def read (tree : HostTree) (f : OpenFile) (count : Nat) :
    Except HostError (List UInt8 × OpenFile) :=
  if count = 0 then .ok ([], f)
  else if !f.readable then .error .badDescriptor
  else
    let data := (tree.file f.file).content.read f.position count
    .ok (data, { f with position := f.position + data.length })

/-- Writes at the position of an open file and moves it on. Writing nothing needs no right. -/
def write (tree : HostTree) (f : OpenFile) (data : List UInt8) :
    Except HostError (OpenFile × HostTree) :=
  if data.isEmpty then .ok (f, tree)
  else if !f.writable then .error .badDescriptor
  else
    .ok ({ f with position := f.position + data.length },
      tree.modifyFile f.file fun file =>
        { file with content := file.content.write f.position data })

/-- Reads, and hands back the open file also when the read fails. One that the host breaks off has
moved the position past what went through. -/
def readFrom (tree : HostTree) (f : OpenFile) (count : Nat) (fault? : Option HostFault) :
    Except HostError (List UInt8) × OpenFile :=
  match tree.read f count, fault? with
  | .error cause, _ => (.error cause, f)
  | .ok (data, moved), none => (.ok data, moved)
  | .ok (data, moved), some fault =>
    if count ≤ fault.done then (.ok data, moved)
    else (.error fault.cause, { f with position := f.position + min fault.done data.length })

/-- Writes, and hands back the open file and the tree also when the write fails. One that the host
breaks off has stored what went through and moved the position past it. -/
def writeTo (tree : HostTree) (f : OpenFile) (data : List UInt8) (fault? : Option HostFault) :
    Except HostError Unit × OpenFile × HostTree :=
  match tree.write f data, fault? with
  | .error cause, _ => (.error cause, f, tree)
  | .ok (moved, written), none => (.ok (), moved, written)
  | .ok (moved, written), some fault =>
    if data.length ≤ fault.done then (.ok (), moved, written)
    else
      match tree.write f (data.take fault.done) with
      | .error cause => (.error cause, f, tree)
      | .ok (moved, written) => (.error fault.cause, moved, written)

def seek (tree : HostTree) (f : OpenFile) (origin : SeekOrigin) (offset : Int) :
    Except HostError OpenFile :=
  let base : Int :=
    match origin with
    | .start => 0
    | .current => f.position
    | .finish => (tree.file f.file).content.size
  if base + offset < 0 then .error .negativeOffset
  else .ok { f with position := (base + offset).toNat }

end HostTree

end AtariTos

import AtariTos.Host.Files
import AtariTos.Status
import AtariTos.Text.Quoted

namespace AtariTos

abbrev GuestName := List UInt8

namespace GuestName

def text (name : GuestName) : String :=
  String.ofList (name.map fun byte => Char.ofNat byte.toNat)

def slash : UInt8 := 0x2f

def backslash : UInt8 := 0x5c

def dot : GuestName := [0x2e]

def dotDot : GuestName := [0x2e, 0x2e]

def isSeparator (byte : UInt8) : Bool :=
  byte = slash || byte = backslash

end GuestName

inductive PathRefusal where
  | unreachableRoot (path : String) (cause : HostError)
  | rootNotDirectory (path : HostPath)
  | outside
  | overlong
  | noDirectory (path : HostPath)
deriving DecidableEq, Repr

/-- Longest guest path, the closing zero not counted. -/
def pathMax : Nat := 256

namespace PathRefusal

def message : PathRefusal → String
  | unreachableRoot path cause =>
    s!"sandbox root {quotedPath path} is unusable: {cause.message}"
  | rootNotDirectory path =>
    s!"sandbox root {quotedPath path.render} is unusable: not a directory"
  | outside => "path leaves the sandbox"
  | overlong => s!"path is longer than {pathMax} bytes"
  | noDirectory path => s!"no such directory: {quotedPath path.render}"

def status : PathRefusal → Status
  | overlong => .pathOverflow
  | outside => .pathNotFound
  | noDirectory _ => .pathNotFound
  | unreachableRoot _ _ => .internalError
  | rootNotDirectory _ => .internalError

end PathRefusal

structure Drive where
  root : HostPath
  /-- The current directory, as names below the root. -/
  directory : List GuestName := []
deriving DecidableEq, Repr

namespace Drive

def mount (tree : HostTree) (working : HostPath) (path : String) : Except PathRefusal Drive :=
  match HostTree.status (tree.locateText working path) with
  | .error cause => .error (.unreachableRoot path cause)
  | .ok (root, .directory _) => .ok { root }
  | .ok (root, _) => .error (.rootNotDirectory root)

/-- The current directory as the guest writes it, each name behind a backslash. -/
def directoryText (drive : Drive) : String :=
  String.join (drive.directory.map fun name => "\\" ++ GuestName.text name)

def segments : List UInt8 → List GuestName
  | [] => [[]]
  | byte :: rest =>
    match segments rest with
    | [] => [[byte]]
    | segment :: more =>
      if GuestName.isSeparator byte then [] :: segment :: more else (byte :: segment) :: more

def isLetter (byte : UInt8) : Bool :=
  (0x41 ≤ byte && byte ≤ 0x5a) || (0x61 ≤ byte && byte ≤ 0x7a)

/-- A path without its drive letter. There is one drive, so any letter means it. -/
def dropLetter : List UInt8 → List UInt8
  | letter :: colon :: rest =>
    if isLetter letter && colon = 0x3a then rest else letter :: colon :: rest
  | path => path

def startsAtRoot (path : List UInt8) : Bool :=
  path.head?.any GuestName.isSeparator

/-- Goes one segment further; the root has nothing above it. -/
def descend (names : List GuestName) (segment : GuestName) : Option (List GuestName) :=
  if segment = [] ∨ segment = GuestName.dot then some names
  else if segment = GuestName.dotDot then
    if names = [] then none else some names.dropLast
  else some (names ++ [segment])

def names (drive : Drive) (guest : List UInt8) : Except PathRefusal (List GuestName) :=
  if pathMax < guest.length then .error .overlong
  else
    let path := dropLetter guest
    let start := if startsAtRoot path then [] else drive.directory
    match (segments path).foldlM descend start with
    | none => .error .outside
    | some names => .ok names

def below (drive : Drive) (names : List GuestName) : HostPath :=
  drive.root ++ names.map GuestName.text

/-- The nearest ancestor of a path that exists, or the path itself, lies below the root once its
links are followed. A link that leads nowhere counts as missing. -/
def encloses (drive : Drive) (tree : HostTree) (path : HostPath) : Bool :=
  match (HostTree.lineage path).reverse.findSome? tree.canonical? with
  | some reached => drive.root.isPrefixOf reached
  | none => false

def translate (drive : Drive) (tree : HostTree) (guest : List UInt8) :
    Except PathRefusal HostPath :=
  match drive.names guest with
  | .error cause => .error cause
  | .ok names =>
    if drive.encloses tree (drive.below names) then .ok (drive.below names)
    else .error .outside

def changeDirectory (drive : Drive) (tree : HostTree) (guest : List UInt8) :
    Except PathRefusal Drive :=
  match drive.names guest with
  | .error cause => .error cause
  | .ok names =>
    if !drive.encloses tree (drive.below names) then .error .outside
    else if !tree.isDirectory (drive.below names) then
      .error (.noDirectory (drive.below names))
    else .ok { drive with directory := names }

end Drive

end AtariTos

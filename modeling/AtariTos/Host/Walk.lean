import AtariTos.Host.Error
import AtariTos.Host.Tree

namespace AtariTos

namespace HostPath

def pieces : List Char → List (List Char)
  | [] => [[]]
  | c :: rest =>
    match pieces rest with
    | [] => [[c]]
    | piece :: more => if c = '/' then [] :: piece :: more else (c :: piece) :: more

/-- The names a path text spells. A slash at the end asks for a directory, as a dot does. -/
def names (text : String) : List String :=
  let found := ((pieces text.toList).filter (· ≠ [])).map String.ofList
  if text.toList.getLast? = some '/' then found ++ ["."] else found

def isAbsolute (text : String) : Bool :=
  text.toList.head? = some '/'

def nameMax : Nat := 255

def linkMax : Nat := 40

end HostPath

/-- Where a walk ends: at something that exists, or at a name that is still free in a directory. -/
inductive Place where
  | found (path : HostPath) (entry : HostEntry)
  | absent (directory : HostPath) (name : String)
deriving DecidableEq, Repr

inductive Stage where
  | arrived (place : Place)
  | failed (cause : HostError)
  /-- A link was met in a directory, with names left to follow behind its target. -/
  | redirected (directory : HostPath) (target : String) (rest : List String)

namespace HostTree

/-- Walks up to the first link that has to be followed. The last name's link is followed only if
`follow` says so. -/
def advance (tree : HostTree) (follow : Bool) : HostPath → List String → Stage
  | directory, [] => .arrived (.found directory ((tree.at? directory).getD (.directory false)))
  | directory, name :: rest =>
    if name = "." then tree.advance follow directory rest
    else if name = ".." then tree.advance follow directory.dropLast rest
    else if '\x00' ∈ name.toList then .failed .zeroInName
    else if HostPath.nameMax < name.utf8ByteSize then .failed .nameTooLong
    else
      match tree.at? (directory ++ [name]) with
      | none => if rest = [] then .arrived (.absent directory name) else .failed .notFound
      | some (.directory _) => tree.advance follow (directory ++ [name]) rest
      | some (.file id) =>
        if rest = [] then .arrived (.found (directory ++ [name]) (.file id))
        else .failed .notDirectory
      | some (.link target) =>
        if rest = [] ∧ !follow then .arrived (.found (directory ++ [name]) (.link target))
        else .redirected directory target rest

def walk (tree : HostTree) (follow : Bool) : Nat → HostPath → List String → Except HostError Place
  | links, directory, names =>
    match tree.advance follow directory names with
    | .arrived place => .ok place
    | .failed cause => .error cause
    | .redirected reached target rest =>
      match links with
      | 0 => .error .tooManyLinks
      | left + 1 =>
        tree.walk follow left (if HostPath.isAbsolute target then [] else reached)
          (HostPath.names target ++ rest)

def locate (tree : HostTree) (path : HostPath) (follow : Bool) : Except HostError Place :=
  tree.walk follow HostPath.linkMax [] path

/-- Where a path text leads, from a working directory. An empty text leads nowhere. -/
def locateText (tree : HostTree) (working : HostPath) (text : String) : Except HostError Place :=
  if text = "" then .error .notFound
  else
    tree.walk true HostPath.linkMax (if HostPath.isAbsolute text then [] else working)
      (HostPath.names text)

def status : Except HostError Place → Except HostError (HostPath × HostEntry)
  | .error cause => .error cause
  | .ok (.absent _ _) => .error .notFound
  | .ok (.found path entry) => .ok (path, entry)

def canonical? (tree : HostTree) (path : HostPath) : Option HostPath :=
  match status (tree.locate path true) with
  | .ok (reached, _) => some reached
  | .error _ => none

def isDirectory (tree : HostTree) (path : HostPath) : Bool :=
  match tree.locate path true with
  | .ok (.found _ (.directory _)) => true
  | _ => false

end HostTree

end AtariTos

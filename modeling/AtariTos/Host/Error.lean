namespace AtariTos

inductive HostError where
  | notFound
  | badDescriptor
  | permissionDenied
  | alreadyExists
  | notDirectory
  | isDirectory
  | negativeOffset
  | nameTooLong
  | tooManyLinks
  /-- A name that holds a zero byte never reaches the host. -/
  | zeroInName
  | other (text : String)
deriving DecidableEq, Repr

namespace HostError

/-- The host's own error number, where the host was asked. -/
def number? : HostError → Option Int32
  | notFound => some 2
  | badDescriptor => some 9
  | permissionDenied => some 13
  | alreadyExists => some 17
  | notDirectory => some 20
  | isDirectory => some 21
  | negativeOffset => some 22
  | nameTooLong => some 36
  | tooManyLinks => some 40
  | zeroInName => none
  | other _ => none

def reason : HostError → String
  | notFound => "No such file or directory"
  | badDescriptor => "Bad file descriptor"
  | permissionDenied => "Permission denied"
  | alreadyExists => "File exists"
  | notDirectory => "Not a directory"
  | isDirectory => "Is a directory"
  | negativeOffset => "Invalid argument"
  | nameTooLong => "File name too long"
  | tooManyLinks => "Too many levels of symbolic links"
  | zeroInName => "file name contained an unexpected NUL byte"
  | other text => text

def message (e : HostError) : String :=
  match e.number? with
  | some number => s!"{e.reason} (os error {number.toInt})"
  | none => e.reason

end HostError

/-- A transfer that the host breaks off: how many of its bytes have gone through by then, and why. -/
structure HostFault where
  done : Nat := 0
  cause : HostError
deriving DecidableEq, Repr

end AtariTos

namespace AtariTos

inductive Status where
  | success
  | invalidArgument
  | invalidFunction
  | fileNotFound
  | pathNotFound
  | noMoreHandles
  | accessDenied
  | invalidHandle
  | insufficientMemory
  | invalidBlock
  | invalidDrive
  | noMoreFiles
  | rangeError
  | internalError
  | invalidFormat
  | growthFailure
  | pathOverflow
deriving DecidableEq, Repr

namespace Status

def code : Status → Int32
  | success => 0
  | invalidArgument => -25
  | invalidFunction => -32
  | fileNotFound => -33
  | pathNotFound => -34
  | noMoreHandles => -35
  | accessDenied => -36
  | invalidHandle => -37
  | insufficientMemory => -39
  | invalidBlock => -40
  | invalidDrive => -46
  | noMoreFiles => -49
  | rangeError => -64
  | internalError => -65
  | invalidFormat => -66
  | growthFailure => -67
  | pathOverflow => -70

def register (status : Status) : UInt32 :=
  status.code.toUInt32

def name : Status → String
  | success => "E_OK"
  | invalidArgument => "EINVAL"
  | invalidFunction => "EINVFN"
  | fileNotFound => "EFILNF"
  | pathNotFound => "EPTHNF"
  | noMoreHandles => "ENHNDL"
  | accessDenied => "EACCDN"
  | invalidHandle => "EIHNDL"
  | insufficientMemory => "ENSMEM"
  | invalidBlock => "EIMBA"
  | invalidDrive => "EDRIVE"
  | noMoreFiles => "ENMFIL"
  | rangeError => "ERANGE"
  | internalError => "EINTRN"
  | invalidFormat => "EPLFMT"
  | growthFailure => "EGSBF"
  | pathOverflow => "EPTHOV"

def all : List Status :=
  [success, invalidArgument, invalidFunction, fileNotFound, pathNotFound, noMoreHandles,
    accessDenied, invalidHandle, insufficientMemory, invalidBlock, invalidDrive, noMoreFiles,
    rangeError, internalError, invalidFormat, growthFailure, pathOverflow]

def ofCode? (code : Int32) : Option Status :=
  all.find? (·.code = code)

/-- The name of a code, a question mark for one that is not assigned. -/
def nameOfCode (code : Int32) : String :=
  ((ofCode? code).map name).getD "?"

theorem ofCode?_code (status : Status) : ofCode? status.code = some status := by
  cases status <;> decide

end Status

end AtariTos

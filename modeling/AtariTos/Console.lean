import AtariTos.Host.Error
import AtariTos.Time.Calendar

namespace AtariTos

structure Console where
  input : List UInt8 := []
  output : List UInt8 := []
  clock : Clock := {}
deriving DecidableEq

namespace Console

def newline : UInt8 := 10

def carriageReturn : UInt8 := 13

def ofInput (input : List UInt8) : Console :=
  { input }

def push (console : Console) (input : List UInt8) : Console :=
  { console with input := console.input ++ input }

def isReady (console : Console) : Bool :=
  !console.input.isEmpty

def nextByte (console : Console) : Option UInt8 × Console :=
  match console.input with
  | [] => (none, console)
  | byte :: rest => (some byte, { console with input := rest })

/-- Splits off a line of at most `max` bytes; it ends behind its newline. -/
def splitLine : Nat → List UInt8 → List UInt8 × List UInt8
  | 0, rest => ([], rest)
  | _ + 1, [] => ([], [])
  | max + 1, byte :: rest =>
    if byte = newline then ([byte], rest)
    else
      let (line, left) := splitLine max rest
      (byte :: line, left)

def nextLine (console : Console) (max : Nat) : List UInt8 × Console :=
  let (line, input) := splitLine max console.input
  (line, { console with input })

def write (console : Console) (data : List UInt8) : Console :=
  { console with output := console.output ++ data }

/-- A byte that is asked for. It is not there yet when the host breaks off before it. -/
def takeByte (console : Console) : Option HostFault → Except HostError (Option UInt8) × Console
  | none => (.ok console.nextByte.1, console.nextByte.2)
  | some fault =>
    if fault.done = 0 then (.error fault.cause, console)
    else (.ok console.nextByte.1, console.nextByte.2)

/-- A line that is asked for byte by byte. If the host breaks off before its end, the bytes until
then are lost. -/
def takeLine (console : Console) (max : Nat) :
    Option HostFault → Except HostError (List UInt8) × Console
  | none => (.ok (console.nextLine max).1, (console.nextLine max).2)
  | some fault =>
    let (part, left) := console.nextLine fault.done
    if max ≤ fault.done ∨ part.length < fault.done ∨ part.getLast? = some newline then
      (.ok (console.nextLine max).1, (console.nextLine max).2)
    else (.error fault.cause, left)

def put (console : Console) (data : List UInt8) : Option HostFault → Except HostError Unit × Console
  | none => (.ok (), console.write data)
  | some fault => (.error fault.cause, console.write (data.take fault.done))

def drain (console : Console) : List UInt8 × Console :=
  (console.output, { console with output := [] })

theorem splitLine_append (max : Nat) (input : List UInt8) :
    (splitLine max input).1 ++ (splitLine max input).2 = input := by
  induction input generalizing max with
  | nil => cases max <;> rfl
  | cons byte rest ih =>
    cases max with
    | zero => rfl
    | succ max =>
      rw [splitLine]
      split
      · rfl
      · exact congrArg (byte :: ·) (ih max)

end Console

end AtariTos

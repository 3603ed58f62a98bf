namespace AtariTos

inductive Command where
  | inspect (binary : String) (args : List String)
  | calls
deriving DecidableEq, Repr

structure Options where
  basePath : Option String := none
  trace : Bool := false
  command : Command
deriving DecidableEq, Repr

inductive UsageError where
  | unknownOption (text : String)
  | unexpectedArgument (text : String)
  | unknownCommand (name : String)
  | missingCommand
  | missingBinary
  | missingValue (option : String)
  | emptyValue (name : String)
  | unwantedValue (option : String)
  | repeatedOption (option : String)
deriving DecidableEq, Repr

namespace UsageError

def message : UsageError → String
  | unknownOption text => s!"unexpected argument '{text}' found"
  | unexpectedArgument text => s!"unexpected argument '{text}' found"
  | unknownCommand name => s!"unrecognized subcommand '{name}'"
  | missingCommand => "a subcommand is required"
  | missingBinary => "the path of a program is required"
  | missingValue option => s!"a value is required for '{option}'"
  | emptyValue name => s!"a value is required for '{name}' but none was supplied"
  | unwantedValue option => s!"no value is wanted for '{option}'"
  | repeatedOption option => s!"the option '{option}' cannot be used multiple times"

end UsageError

inductive Request where
  | run (options : Options)
  | help
  | version
deriving DecidableEq, Repr

namespace CommandLine

inductive Shape where
  | escape
  | long (name : String) (value? : Option String)
  | short (letters : List Char)
  | plain
deriving DecidableEq, Repr

/-- A single dash is a plain argument. -/
def shape (arg : String) : Shape :=
  match arg.toList with
  | ['-', '-'] => .escape
  | '-' :: '-' :: text =>
    let name := String.ofList (text.takeWhile (· ≠ '='))
    match text.dropWhile (· ≠ '=') with
    | [] => .long name none
    | _ :: value => .long name (some (String.ofList value))
  | '-' :: letter :: letters => .short (letter :: letters)
  | _ => .plain

structure Side where
  basePath : Option String := none
  trace : Bool := false
deriving DecidableEq, Repr

inductive CommandName where
  | inspect
  | calls
  | help
deriving DecidableEq, Repr

structure Progress where
  before : Side := {}
  behind : Side := {}
  command : Option CommandName := none
  positionals : List String := []
  /-- The value of the base path comes next. -/
  awaiting : Bool := false
  /-- A double dash has been met. -/
  escaped : Bool := false
deriving DecidableEq, Repr

inductive Interruption where
  | wrong (cause : UsageError)
  | help
  | version
deriving DecidableEq, Repr

namespace Progress

def side (p : Progress) : Side :=
  if p.command = none then p.before else p.behind

def setSide (p : Progress) (side : Side) : Progress :=
  if p.command = none then { p with before := side } else { p with behind := side }

def setBasePath (p : Progress) (value : String) : Except Interruption Progress :=
  if value = "" then .error (.wrong (.emptyValue "--base-path"))
  else if p.side.basePath.isSome then .error (.wrong (.repeatedOption "--base-path"))
  else .ok { p.setSide { p.side with basePath := some value } with awaiting := false }

def setTrace (p : Progress) : Except Interruption Progress :=
  if p.side.trace then .error (.wrong (.repeatedOption "--trace-syscalls"))
  else .ok (p.setSide { p.side with trace := true })

/-- The version is an option of the program and of none of its commands. -/
def askVersion (p : Progress) (arg : String) : Except Interruption Progress :=
  .error (if p.command = none then .version else .wrong (.unknownOption arg))

/-- An option behind two dashes, with the value that an equals sign gave it. -/
def long (p : Progress) (arg name : String) (value? : Option String) :
    Except Interruption Progress :=
  if name = "base-path" then
    match value? with
    | some value => p.setBasePath value
    | none => .ok { p with awaiting := true }
  else if name = "version" ∧ p.command ≠ none then .error (.wrong (.unknownOption arg))
  else if name ∉ ["verbose", "trace-syscalls", "help", "version"] then
    .error (.wrong (.unknownOption arg))
  else if value?.isSome then .error (.wrong (.unwantedValue arg))
  else if name = "verbose" then .ok p
  else if name = "trace-syscalls" then p.setTrace
  else if name = "help" then .error .help
  else p.askVersion arg

/-- Letters behind one dash count as options of their own. -/
def shorts (p : Progress) (arg : String) : List Char → Except Interruption Progress
  | [] => .ok p
  | letter :: letters =>
    if letter = 'v' then shorts p arg letters
    else if letter = 'h' then .error .help
    else if letter = 'V' then p.askVersion arg
    else .error (.wrong (.unknownOption arg))

/-- An argument that is no option: the command, or one of the command's own arguments. -/
def positional (p : Progress) (arg : String) : Except Interruption Progress :=
  match p.command with
  | none =>
    if p.escaped then .error (.wrong (.unexpectedArgument arg))
    else if arg = "inspect" then .ok { p with command := some .inspect }
    else if arg = "calls" then .ok { p with command := some .calls }
    else if arg = "help" then .ok { p with command := some .help }
    else .error (.wrong (.unknownCommand arg))
  | some .calls => .error (.wrong (.unexpectedArgument arg))
  | some .inspect =>
    if p.positionals = [] ∧ arg = "" then .error (.wrong (.emptyValue "<BINARY>"))
    else .ok { p with positionals := p.positionals ++ [arg] }
  | some .help => .ok { p with positionals := p.positionals ++ [arg] }

def next (p : Progress) (arg : String) : Except Interruption Progress :=
  if p.escaped ∨ p.command = some .help then p.positional arg
  else if p.awaiting then
    if shape arg = .plain then p.setBasePath arg
    else .error (.wrong (.missingValue "--base-path"))
  else
    match shape arg with
    | .escape => .ok { p with escaped := true }
    | .long name value? => p.long arg name value?
    | .short letters => p.shorts arg letters
    | .plain => p.positional arg

def finish (p : Progress) : Except Interruption Options :=
  let basePath := p.behind.basePath.or p.before.basePath
  let trace := p.before.trace || p.behind.trace
  if p.awaiting then .error (.wrong (.missingValue "--base-path"))
  else
    match p.command, p.positionals with
    | none, _ => .error (.wrong .missingCommand)
    | some .calls, _ => .ok { basePath, trace, command := .calls }
    | some .inspect, [] => .error (.wrong .missingBinary)
    | some .inspect, binary :: args => .ok { basePath, trace, command := .inspect binary args }
    | some .help, [] => .error .help
    | some .help, name :: more =>
      if name ∉ ["inspect", "calls", "help"] then .error (.wrong (.unknownCommand name))
      else
        match more with
        | [] => .error .help
        | other :: _ => .error (.wrong (.unknownCommand other))

end Progress

def parse (args : List String) : Except UsageError Request :=
  match args.foldlM Progress.next {} >>= Progress.finish with
  | .ok options => .ok (.run options)
  | .error .help => .ok .help
  | .error .version => .ok .version
  | .error (.wrong cause) => .error cause

end CommandLine

end AtariTos

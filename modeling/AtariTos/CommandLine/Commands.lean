import AtariTos.CommandLine.Options
import AtariTos.Session
import AtariTos.Report

namespace AtariTos

namespace CommandLine

structure Outcome where
  exitCode : UInt8 := 0
  output : String := ""
  errors : String := ""
deriving DecidableEq, Repr

structure HostView (m : Type → Type) where
  readFile : String → m (Except HostError Bytes)
  checkRoot : String → m (Except PathRefusal Unit)

/-- Colours are forced by a variable, else forbidden by another, else written to a terminal unless
a third is zero. -/
def wantsColors (force? forbid? allow? : Option String) (terminal : Bool) : Bool :=
  if force?.any (· ≠ "0") then true
  else if forbid?.isSome then false
  else terminal && allow?.all (· ≠ "0")

def paint (colors : Bool) (style text : String) : String :=
  if colors then s!"\x1b[{style}m{text}\x1b[0m" else text

def bold : String := "1"

def green : String := "32"

def yellow : String := "33"

def blue : String := "34"

def boldRed : String := "1;31"

def boldGreen : String := "1;32"

def boldBlue : String := "1;34"

def lines (text : List String) : String :=
  String.join (text.map (· ++ "\n"))

def indented (text : List String) : List String :=
  text.map ("  " ++ ·)

def sectionTitle (colors : Bool) (title : String) : List String :=
  ["", paint colors boldBlue title,
    paint colors blue (String.ofList (List.replicate title.utf8ByteSize '='))]

def failure (colors : Bool) (causes : List String) : Outcome :=
  { exitCode := 1
    errors := lines [paint colors boldRed "Error:" ++ " " ++ ": ".intercalate causes] }

/-- A failed load; a header that is wrong is named twice, as the cause and inside the text that
names the cause. -/
def loadCauses : LoadFailure → List String
  | .badHeader cause => [(LoadFailure.badHeader cause).message, cause.message]
  | cause => [cause.message]

/-- A refused root, with what the host had to say in the text and behind it. -/
def rootCauses : PathRefusal → List String
  | .unreachableRoot path cause => [(PathRefusal.unreachableRoot path cause).message, cause.message]
  | .rootNotDirectory path => [(PathRefusal.rootNotDirectory path).message, "not a directory"]
  | cause => [cause.message]

def inspectReport (colors : Bool) (binary : String) (program : LoadedProgram)
    (memory : GuestMemory) : Outcome :=
  { output := lines <|
      [paint colors bold "📦" ++ " " ++ paint colors yellow binary] ++
      sectionTitle colors "Header" ++ indented (Report.header program) ++
      sectionTitle colors "Basepage" ++ indented (Report.basepage program) ++
      sectionTitle colors "Memory map" ++ indented (Report.memoryMap memory) ++
      indented [Report.heap program] ++
      ["", paint colors boldGreen "✓" ++ s!" entry point {hexAddress program.entry.toNat}"] }

variable {m : Type → Type} [Monad m]

/-- Loads a program and shows its header, its basepage and the memory map. -/
def inspect (view : HostView m) (colors : Bool) (root binary : String) (args : List String)
    (ramTop : UInt32) : m Outcome := do
  match ← view.readFile binary with
  | .error cause => return failure colors [s!"reading {binary}", cause.message]
  | .ok file =>
    match ← view.checkRoot root with
    | .error cause => return failure colors ("setting up the sandbox" :: rootCauses cause)
    | .ok () =>
      match LoadedProgram.ofFile file args ramTop with
      | .error cause => return failure colors (s!"loading {binary}" :: loadCauses cause)
      | .ok (program, memory) => return inspectReport colors binary program memory

def callSection (colors : Bool) (vector : UInt8) (table : CallTable Routine) : List String :=
  let line (call : Call Routine) : String :=
    if call.isServiced then paint colors green (Report.call call) else Report.call call
  sectionTitle colors s!"{table.layer.name} (trap vector 0x{hex 2 vector.toNat})" ++
    indented (table.sorted.map line)

def listCalls (colors : Bool) : Outcome :=
  { output := lines <|
      callSection colors Trap.gemdosVector Catalogue.gemdos ++
      callSection colors Trap.biosVector Catalogue.bios ++
      callSection colors Trap.xbiosVector Catalogue.xbios }

def rootOf (options : Options) (environment : Option String) : String :=
  (options.basePath.or environment).getD "."

def usage : String :=
  lines
    ["Usage: ataritos [OPTIONS] <COMMAND>",
      "",
      "Commands:",
      "  inspect <BINARY> [ARGS]...  Load a program and print its header, basepage and memory map",
      "  calls                       List the calls and which ones are serviced",
      "",
      "Options:",
      "  -v, --verbose...             Raise log verbosity",
      "      --base-path <BASE_PATH>  Host directory mapped to C:\\",
      "      --trace-syscalls         Log every call",
      "  -h, --help                   Print help",
      "  -V, --version                Print version"]

def versionText : String :=
  lines ["ataritos 0.1.0"]

def run (view : HostView m) (colors : Bool) (environment : Option String) (args : List String) :
    m Outcome := do
  match parse args with
  | .error cause =>
    return { exitCode := 2, errors := lines ["error: " ++ cause.message, ""] ++ usage }
  | .ok .help => return { output := usage }
  | .ok .version => return { output := versionText }
  | .ok (.run options) =>
    match options.command with
    | .calls => return listCalls colors
    | .inspect binary more =>
      inspect view colors (rootOf options environment) binary more MemoryMap.cartridge

def treeView (host : HostTree) (working : HostPath) : HostView Id where
  readFile path :=
    match HostTree.status (host.locateText working path) with
    | .error cause => .error cause
    | .ok (_, .file id) => .ok (host.file id).content.bytes.toArray
    | .ok (_, _) => .error .isDirectory
  checkRoot path := (Drive.mount host working path).map fun _ => ()

end CommandLine

end AtariTos

import AtariTos.CommandLine.Commands

namespace AtariTos

namespace CommandLine

/-- The failure that an exception reports. Its number may come with the sign changed. -/
def hostError : IO.Error → HostError
  | .noFileOrDirectory _ _ _ => .notFound
  | .permissionDenied _ _ _ => .permissionDenied
  | .inappropriateType _ code _ =>
    if code = 20 ∨ code = 0 - 20 then .notDirectory else .isDirectory
  | .invalidArgument _ code text =>
    if code = 36 ∨ code = 0 - 36 then .nameTooLong
    else if code = 40 ∨ code = 0 - 40 then .tooManyLinks
    else .other text
  | cause => .other cause.toString

def hostView : HostView IO where
  readFile path := do
    try
      return .ok (← IO.FS.readBinFile path).data
    catch e => return .error (hostError e)
  checkRoot path := do
    try
      let real ← IO.FS.realPath path
      if ← real.isDir then return .ok ()
      else if ← real.pathExists then
        return .error (.rootNotDirectory (real.components.filter (· ≠ "")))
      else return .error (.unreachableRoot path .notFound)
    catch e => return .error (.unreachableRoot path (hostError e))

end CommandLine

end AtariTos

open AtariTos in
def main (args : List String) : IO UInt32 := do
  let colors :=
    CommandLine.wantsColors (← IO.getEnv "CLICOLOR_FORCE") (← IO.getEnv "NO_COLOR")
      (← IO.getEnv "CLICOLOR") (← (← IO.getStdout).isTty)
  let outcome ←
    CommandLine.run CommandLine.hostView colors (← IO.getEnv "TOS_BASE_PATH") args
  (← IO.getStdout).putStr outcome.output
  (← IO.getStderr).putStr outcome.errors
  return outcome.exitCode.toUInt32

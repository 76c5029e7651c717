import AgentCatalog.CommandLine.Run

/-!
# The program

Reads the arguments, the environment and the files, and writes what a run answers.
-/

namespace AgentCatalog.CommandLine

/-- How the program is called. -/
def usage : String :=
  "Usage: agent-catalog [OPTIONS] --rules FILE [USER_AGENT]...

Looks up user agents in a catalog of rules; without any, the lines of the input.

Options:
  -r, --rules FILE     file of the rules [env: RSBROWSCAP_RULES]
      --tier TIER      attributes to read: basic (the default), standard or extended
      --layout FILE    file of the layout, in place of a tier
  -p, --pretty         write answers over several lines
  -h, --help           print this help
  -V, --version        print the version
"

/-- What is said about the failures of a file that a name may lead to, by the number of the
failure. -/
def failureText? : Nat → Option String
  | 13 => some "Permission denied"
  | 20 => some "Not a directory"
  | 21 => some "Is a directory"
  | 36 => some "File name too long"
  | 40 => some "Too many levels of symbolic links"
  | _ => none

/-- The failure of a file as the system reports it. A number that comes negated is seen as a word of
32 bits whose first bit is set, and is negated back. -/
def systemError (kind : IoKind) (details : String) (code : UInt32) : IoError :=
  let number := if code.toNat < 0x80000000 then code.toNat else (0 - code).toNat
  ⟨kind, (failureText? number).getD details ++ " (os error " ++ toString number ++ ")"⟩

/-- The contents of a file. -/
def readFile (name : String) : IO (Except IoError (List UInt8)) := do
  try
    let bytes ← IO.FS.readBinFile name
    return .ok bytes.data.toList
  catch
    | .noFileOrDirectory .. => return .error .fileNotFound
    | .permissionDenied _ code details => return .error (systemError .permissionDenied details code)
    | .inappropriateType _ code details => return .error (systemError .other details code)
    | .invalidArgument _ code details => return .error (systemError .other details code)
    | .otherError code details => return .error (systemError .other details code)
    | e => return .error ⟨.other, toString e⟩

/-- The contents of the files that a run may ask for. -/
def readFiles (options : Options) : IO Files := do
  let contents ← (options.rules :: options.layout.toList).mapM fun name => do
    return (name, ← readFile name)
  return fun name => (contents.lookup name).getD (.error .fileNotFound)

/-- Write what a run answers. -/
def report (outcome : Outcome) : IO UInt32 := do
  IO.print outcome.output
  (← IO.getStdout).flush
  IO.eprint outcome.errorOutput
  return outcome.exitCode.toUInt32

/-- Run with the given options. The input is read only if its lines are asked for. -/
def runWith (options : Options) : IO UInt32 := do
  match loadCatalog options (← readFiles options) with
  | .error e => report ⟨"", some e⟩
  | .ok catalog =>
    let input ← if options.agents.isEmpty then
        (← IO.getStdin).readBinToEnd
      else
        pure .empty
    report (answerFrom options catalog input.data.toList)

/-- Run with the given arguments. The exit code is 2 if they are not understood. -/
def runWithArguments (args : List String) : IO UInt32 := do
  match Options.read args (← IO.getEnv "RSBROWSCAP_RULES") with
  | .error .help =>
    IO.print usage
    return 0
  | .error .version =>
    IO.println "agent-catalog 0.1.0"
    return 0
  | .error .misuse =>
    IO.eprint usage
    return 2
  | .ok options => runWith options

end AgentCatalog.CommandLine

/-- The program. -/
def main (args : List String) : IO UInt32 :=
  AgentCatalog.CommandLine.runWithArguments args

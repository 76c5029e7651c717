import AgentCatalog.CommandLine.Options
import AgentCatalog.Loader.Basic

/-!
# A run of the command line

A run loads the catalog of a file and answers user agents, those of the arguments or, if there are
none, the lines of the input. Each answer is a JSON object and ends with a line feed. An answer
depends on the catalog and the user agent only.
-/

namespace AgentCatalog.CommandLine

/-- The contents of files, by name. -/
abbrev Files := String → Except IoError (List UInt8)

/-- What a run writes, and the error that ends it, if one does. -/
structure Outcome where
  output : String
  error : Option LoadError
deriving DecidableEq, Repr

/-- What is written to the error output. -/
def Outcome.errorOutput (o : Outcome) : String :=
  match o.error with
  | none => ""
  | some e => "error: " ++ e.message ++ "\n"

/-- The exit code of a run. -/
def Outcome.exitCode (o : Outcome) : Nat :=
  if o.error.isSome then 1 else 0

/-! ## Answers -/

/-- The answer to a user agent. -/
def answerJson (catalog : Catalog) (agent : String) : Json :=
  let rule := catalog.lookup agent
  .ofMembers
    [("user_agent", .ofText agent),
      ("matched", .ofText rule.pattern),
      ("is_default", .bool rule.isCatchAll),
      ("capabilities", rule.capabilities.toJson)]

/-- The answer as it is written. -/
def answer (pretty : Bool) (catalog : Catalog) (agent : String) : String :=
  let json := answerJson catalog agent
  (if pretty then json.pretty else json.compact) ++ "\n"

/-- The answers to user agents, one after the other. -/
def answerAll (pretty : Bool) (catalog : Catalog) (agents : List String) : String :=
  String.join (agents.map (answer pretty catalog))

/-! ## The lines of the input -/

/-- The lines of the input: what stands between line feeds, and what stands behind the last one
unless that is nothing. -/
def splitLines : List UInt8 → List (List UInt8)
  | [] => []
  | b :: rest =>
    if b = 0x0A then [] :: splitLines rest
    else
      match splitLines rest with
      | [] => [[b]]
      | line :: lines => (b :: line) :: lines

/-- The user agent of a line: its text without the white space at its end, such as the carriage
return of a line that ends with one. -/
def agentOfLine (line : List UInt8) : Except IoError String :=
  match Utf8.decode line with
  | .ok text => .ok (String.ofList (Text.trimEnd text))
  | .error _ => .error .invalidText

/-- The user agents of lines up to the first that is not text, and the error of that one. -/
def agentsOfLines : List (List UInt8) → List String × Option IoError
  | [] => ([], none)
  | line :: rest =>
    match agentOfLine line with
    | .error e => ([], some e)
    | .ok agent =>
      let (agents, error) := agentsOfLines rest
      (agent :: agents, error)

/-! ## Runs -/

/-- The layout that is asked for: that of the file if one is named, else that of the tier. -/
def chosenLayout (options : Options) (files : Files) : Except LoadError Layout :=
  match options.layout with
  | none => .ok (.ofTier options.tier)
  | some name =>
    match files name with
    | .error e => .error (.io e)
    | .ok bytes =>
      match Utf8.decode bytes with
      | .error _ => .error (.io .invalidText)
      | .ok text => Layout.ofDocument (String.ofList text)

/-- The catalog that is asked for. -/
def loadCatalog (options : Options) (files : Files) : Except LoadError Catalog := do
  let layout ← chosenLayout options files
  Loader.load (.ofLayout layout) ((files options.rules).map Csv.Source.ofBytes)

/-- The user agents that are asked for, and the error that ends them, if one does. -/
def chosenAgents (options : Options) (input : List UInt8) : List String × Option IoError :=
  if options.agents.isEmpty then agentsOfLines (splitLines input) else (options.agents, none)

/-- What is answered from a catalog. -/
def answerFrom (options : Options) (catalog : Catalog) (input : List UInt8) : Outcome :=
  let (agents, error) := chosenAgents options input
  ⟨answerAll options.pretty catalog agents, error.map .io⟩

/-- A whole run. -/
def run (options : Options) (files : Files) (input : List UInt8) : Outcome :=
  match loadCatalog options files with
  | .error e => ⟨"", some e⟩
  | .ok catalog => answerFrom options catalog input

end AgentCatalog.CommandLine

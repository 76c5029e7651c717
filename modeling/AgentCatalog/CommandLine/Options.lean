import AgentCatalog.Layout.Basic

/-!
# Options of the command line

The arguments are read from left to right, and the first one that is not understood settles the
matter. An argument that starts with two hyphens names an option, and one that starts with a single
hyphen has a letter for each option; a lone hyphen is an ordinary argument. The value of an option
is attached to it or is the next argument, which then must not look like an option. Behind a lone
double hyphen there are no options. No option may be given twice. The file of the rules may come
from the environment instead.
-/

namespace AgentCatalog.CommandLine

/-- What is asked for. -/
structure Options where
  /-- The file of the rules. -/
  rules : String
  /-- The tier to read, unless there is a layout. -/
  tier : Tier
  /-- The file of the layout. -/
  layout : Option String
  /-- Write answers over several lines. -/
  pretty : Bool
  /-- The user agents to look up; without any, the lines of the input are. -/
  agents : List String
deriving DecidableEq, Repr

/-- Why the program is not run. -/
inductive Refusal where
  /-- The arguments are not understood. -/
  | misuse
  /-- Help is asked for. -/
  | help
  /-- The version is asked for. -/
  | version
deriving DecidableEq, Repr

/-- An option, by what it takes. -/
inductive OptionName where
  | rules
  | tier
  | layout
  | pretty
  | help
  | version
deriving DecidableEq, Repr

namespace OptionName

/-- The option with the given long name. -/
def ofLong? : String → Option OptionName
  | "rules" => some .rules
  | "tier" => some .tier
  | "layout" => some .layout
  | "pretty" => some .pretty
  | "help" => some .help
  | "version" => some .version
  | _ => none

/-- The option with the given letter. -/
def ofLetter? : Char → Option OptionName
  | 'r' => some .rules
  | 'p' => some .pretty
  | 'h' => some .help
  | 'V' => some .version
  | _ => none

/-- The option has a value. -/
def takesValue : OptionName → Bool
  | .rules | .tier | .layout => true
  | .pretty | .help | .version => false

end OptionName

/-- The options met so far. -/
structure Given where
  rules : Option String
  tier : Option Tier
  layout : Option String
  pretty : Bool
  agents : List String
deriving DecidableEq, Repr

namespace Given

/-- No arguments. -/
def none : Given :=
  ⟨.none, .none, .none, false, []⟩

/-- One more option with a value. It must not have been given before, the name of a file must not be
empty, and a tier must exist. -/
def withValue (g : Given) (name : OptionName) (value : String) : Except Refusal Given :=
  match name with
  | .rules =>
    if g.rules.isSome || value.isEmpty then .error .misuse else .ok { g with rules := some value }
  | .layout =>
    if g.layout.isSome || value.isEmpty then .error .misuse else .ok { g with layout := some value }
  | .tier =>
    match g.tier, Tier.ofName? value with
    | .none, some tier => .ok { g with tier := some tier }
    | _, _ => .error .misuse
  | _ => .error .misuse

/-- One more option without a value. -/
def withFlag (g : Given) : OptionName → Except Refusal Given
  | .pretty => if g.pretty then .error .misuse else .ok { g with pretty := true }
  | .help => .error .help
  | .version => .error .version
  | _ => .error .misuse

/-- One more user agent. -/
def withAgents (g : Given) (agents : List String) : Given :=
  { g with agents := g.agents ++ agents }

end Given

/-- The argument is read as an option and not as a value. -/
def looksLikeOption (arg : String) : Bool :=
  match arg.toList with
  | '-' :: _ :: _ => true
  | _ => false

/-- The options of a row of letters behind one hyphen. The first one that takes a value has the rest
as its value, without an equals sign before it; if there is no rest its value is still to come. -/
def readLetters (g : Given) : List Char → Except Refusal (Given × Option OptionName)
  | [] => .ok (g, none)
  | c :: rest =>
    match OptionName.ofLetter? c with
    | none => .error .misuse
    | some name =>
      if name.takesValue then
        match rest with
        | [] => .ok (g, some name)
        | '=' :: value => (g.withValue name (String.ofList value)).map (·, none)
        | value => (g.withValue name (String.ofList value)).map (·, none)
      else
        match g.withFlag name with
        | .error e => .error e
        | .ok g => readLetters g rest

/-- The option of an argument behind two hyphens. If it takes a value and none is attached by an
equals sign, its value is still to come. -/
def readLong (g : Given) (text : List Char) : Except Refusal (Given × Option OptionName) :=
  let (name, attached) := text.span (· ≠ '=')
  match OptionName.ofLong? (String.ofList name), attached with
  | none, _ => .error .misuse
  | some name, [] =>
    if name.takesValue then .ok (g, some name) else (g.withFlag name).map (·, none)
  | some name, _ :: value =>
    if name.takesValue then (g.withValue name (String.ofList value)).map (·, none)
    else .error .misuse

/-- One argument, which is not a lone double hyphen. -/
def readArgument (g : Given) (arg : String) : Except Refusal (Given × Option OptionName) :=
  match arg.toList with
  | '-' :: '-' :: text => readLong g text
  | '-' :: c :: text => readLetters g (c :: text)
  | _ => .ok (g.withAgents [arg], none)

/-- The arguments from left to right. `pending` is the option whose value comes next. -/
def readArguments (g : Given) (pending : Option OptionName) :
    List String → Except Refusal Given
  | [] => if pending.isSome then .error .misuse else .ok g
  | arg :: rest =>
    match pending with
    | some name =>
      if looksLikeOption arg then .error .misuse
      else
        match g.withValue name arg with
        | .error e => .error e
        | .ok g => readArguments g none rest
    | none =>
      if arg = "--" then .ok (g.withAgents rest)
      else
        match readArgument g arg with
        | .error e => .error e
        | .ok (g, pending) => readArguments g pending rest

/-- The options that the arguments ask for, where `environment` names the file of the rules if the
arguments do not. -/
def Options.read (args : List String) (environment : Option String) : Except Refusal Options := do
  let g ← readArguments .none none args
  let rules ← match g.rules, environment with
    | some rules, _ => .ok rules
    | none, some rules => if rules.isEmpty then .error .misuse else .ok rules
    | none, none => .error .misuse
  return ⟨rules, g.tier.getD .basic, g.layout, g.pretty, g.agents⟩

end AgentCatalog.CommandLine

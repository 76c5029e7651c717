import AgentCatalog.Proofs.CommandLine.Lines

/-!
# Two ways to ask for user agents

User agents are asked for behind a double hyphen or in the lines of the input. Both ways lead to the
same options but for the user agents, so to the same catalog, and user agents that fit in lines are
answered alike:

* `readArguments_append` and `Options.read_append`: what stands behind a double hyphen;
* `run_agents` and `run_inputOf`: the runs of the two ways;
* `asked_answers`: the outcome that both come to.
-/

namespace AgentCatalog.CommandLine

/-- A run with the given arguments, unless they are refused. -/
def runGiven (args : List String) (environment : Option String) (files : Files)
    (input : List UInt8) : Except Refusal Outcome :=
  (Options.read args environment).map fun options => run options files input

/-- The arguments give options and ask for no user agent. -/
structure GivesOnly (args : List String) (environment : Option String) (options : Options) :
    Prop where
  read_eq : Options.read args environment = .ok options
  agents_eq : options.agents = []
  hyphens_notMem : "--" ∉ args

/-- The outcome of both runs that ask for the user agents: they stand behind a double hyphen,
whatever the input is, or the input has their lines. -/
structure Asked (args : List String) (environment : Option String) (files : Files)
    (agents : List String) (outcome : Outcome) : Prop where
  arguments : ∀ input, runGiven (args ++ "--" :: agents) environment files input = .ok outcome
  lines : runGiven args environment files (inputOf agents) = .ok outcome

variable {args agents : List String} {environment : Option String} {files : Files}
  {options : Options} {outcome : Outcome} {catalog : Catalog}

lemma Asked.unique {outcome' : Outcome} (h : Asked args environment files agents outcome)
    (h' : Asked args environment files agents outcome') : outcome = outcome' :=
  Except.ok.inj (h.lines.symm.trans h'.lines)

/-! ### Behind a double hyphen -/

/-- Behind a double hyphen there are user agents only, whatever they look like. -/
lemma readArguments_append {g g' : Given} {pending : Option OptionName}
    (hread : readArguments g pending args = .ok g') (hhyphens : "--" ∉ args)
    (agents : List String) :
    readArguments g pending (args ++ "--" :: agents) = .ok (g'.withAgents agents) := by
  induction args generalizing g pending with
  | nil =>
    cases pending with
    | some name => cases hread
    | none =>
      obtain rfl := Except.ok.inj hread
      rfl
  | cons arg args ih =>
    rw [List.mem_cons, not_or] at hhyphens
    rw [List.cons_append]
    cases pending with
    | some name =>
      -- the value of the option is `arg`, not the double hyphen
      rw [readArguments] at hread ⊢
      split at hread
      · cases hread
      · next hvalue =>
        rw [if_neg hvalue]
        cases hg : g.withValue name arg with
        | error e =>
          rw [hg] at hread
          cases hread
        | ok g =>
          rw [hg] at hread
          exact ih hread hhyphens.2
    | none =>
      rw [readArguments, if_neg (Ne.symm hhyphens.1)] at hread ⊢
      cases hg : readArgument g arg with
      | error e =>
        rw [hg] at hread
        cases hread
      | ok read =>
        rw [hg] at hread
        exact ih hread hhyphens.2

lemma Options.read_append (hread : Options.read args environment = .ok options)
    (hhyphens : "--" ∉ args) (agents : List String) :
    Options.read (args ++ "--" :: agents) environment =
      .ok { options with agents := options.agents ++ agents } := by
  rw [Options.read] at hread ⊢
  cases hg : readArguments .none none args with
  | error e =>
    rw [hg] at hread
    cases hread
  | ok g =>
    rw [hg] at hread
    rw [readArguments_append hg hhyphens]
    obtain ⟨rules, tier, layout, pretty, given⟩ := g
    -- the arguments name the file of the rules, or the environment does
    cases rules with
    | some rules =>
      obtain rfl := Except.ok.inj hread
      rfl
    | none =>
      cases environment with
      | none => cases hread
      | some rules =>
        dsimp only [bind, Except.bind] at hread ⊢
        split at hread
        · cases hread
        · next hempty =>
          obtain rfl := Except.ok.inj hread
          exact if_neg hempty

lemma GivesOnly.asked (h : GivesOnly args environment options)
    (harguments : ∀ input, run { options with agents } files input = outcome)
    (hlines : run options files (inputOf agents) = outcome) :
    Asked args environment files agents outcome where
  arguments input := by
    rw [runGiven, Options.read_append h.read_eq h.hyphens_notMem, h.agents_eq, List.nil_append]
    exact congrArg _ (harguments input)
  lines := by
    rw [runGiven, h.read_eq]
    exact congrArg _ hlines

/-! ### Runs with given options -/

/-- The catalog does not depend on the user agents. -/
lemma loadCatalog_agents (options : Options) (files : Files) (agents : List String) :
    loadCatalog { options with agents } files = loadCatalog options files :=
  rfl

lemma run_agents (hload : loadCatalog options files = .ok catalog) (hagents : agents ≠ [])
    (input : List UInt8) : run { options with agents } files input =
      ⟨answerAll options.pretty catalog agents, none⟩ := by
  have hchosen : chosenAgents { options with agents } input = (agents, none) :=
    if_neg (by rwa [List.isEmpty_iff])
  rw [run, loadCatalog_agents, hload]
  dsimp only
  rw [answerFrom, hchosen]
  rfl

lemma run_inputOf (hload : loadCatalog options files = .ok catalog) (hnone : options.agents = [])
    (hfits : ∀ agent ∈ agents, FitsLine agent) : run options files (inputOf agents) =
      ⟨answerAll options.pretty catalog agents, none⟩ := by
  have hchosen : chosenAgents options (inputOf agents) = (agents, none) := by
    rw [chosenAgents, hnone, List.isEmpty_nil, if_pos rfl,
      agentsOfLines_inputOf_of_fitsLine hfits]
  rw [run, hload]
  dsimp only
  rw [answerFrom, hchosen]
  rfl

lemma run_error {error : LoadError} (hload : loadCatalog options files = .error error)
    (input : List UInt8) : run options files input = ⟨"", some error⟩ := by
  rw [run, hload]

/-- The answers to user agents are those to the first of them and then those to the others. -/
lemma answerAll_append (pretty : Bool) (catalog : Catalog) (first second : List String) :
    answerAll pretty catalog (first ++ second) =
      answerAll pretty catalog first ++ answerAll pretty catalog second := by
  rw [answerAll, List.map_append, String.join_append, answerAll, answerAll]

/-! ### Both ways -/

lemma GivesOnly.asked_answerAll (h : GivesOnly args environment options)
    (hload : loadCatalog options files = .ok catalog) (hagents : agents ≠ [])
    (hfits : ∀ agent ∈ agents, FitsLine agent) :
    Asked args environment files agents ⟨answerAll options.pretty catalog agents, none⟩ :=
  h.asked (run_agents hload hagents) (run_inputOf hload h.agents_eq hfits)

lemma GivesOnly.asked_error (h : GivesOnly args environment options) {error : LoadError}
    (hload : loadCatalog options files = .error error) (agents : List String) :
    Asked args environment files agents ⟨"", some error⟩ :=
  h.asked (run_error hload) (run_error hload _)

/-- User agents that fit in lines have the same outcome both ways. If there is a catalog, the run
succeeds and writes an answer for each of them, which depends on the options, the catalog and that
user agent only, so that more user agents just add their answers. Else the run writes nothing. -/
theorem asked_answers (h : GivesOnly args environment options) (files : Files) :
    (∀ catalog, loadCatalog options files = .ok catalog →
      (∀ agents, agents ≠ [] → (∀ agent ∈ agents, FitsLine agent) →
        ∃ outcome, Asked args environment files agents outcome ∧ outcome.exitCode = 0 ∧
          outcome.output = String.join (agents.map (answer options.pretty catalog))) ∧
      (∀ first second, first ≠ [] → second ≠ [] → (∀ agent ∈ first ++ second, FitsLine agent) →
        ∀ outcome₁ outcome₂ outcome, Asked args environment files first outcome₁ →
          Asked args environment files second outcome₂ →
          Asked args environment files (first ++ second) outcome →
            outcome.output = outcome₁.output ++ outcome₂.output)) ∧
    (∀ error, loadCatalog options files = .error error → ∀ agents,
      ∃ outcome, Asked args environment files agents outcome ∧ outcome.output = "") := by
  refine ⟨fun catalog hload => ⟨fun agents hagents hfits => ?_, ?_⟩, fun error hload agents => ?_⟩
  · exact ⟨_, h.asked_answerAll hload hagents hfits, rfl, rfl⟩
  · intro first second hfirst hsecond hfits outcome₁ outcome₂ outcome h₁ h₂ hboth
    obtain ⟨hfits₁, hfits₂⟩ := List.forall_mem_append.1 hfits
    obtain rfl := h₁.unique (h.asked_answerAll hload hfirst hfits₁)
    obtain rfl := h₂.unique (h.asked_answerAll hload hsecond hfits₂)
    obtain rfl := hboth.unique
      (h.asked_answerAll hload (List.append_ne_nil_of_left_ne_nil hfirst second) hfits)
    exact answerAll_append options.pretty catalog first second
  · exact ⟨_, h.asked_error hload agents, rfl⟩

/-- One user agent looks like an option, one has no text, and one has a carriage return inside. -/
theorem asked_answers_of_inner_return :
    let args := ["--rules", "rules.csv", "-p"]
    let options : Options := ⟨"rules.csv", .basic, none, true, []⟩
    let files : Files := fun _ => .ok (Utf8.encode ("Opera*".toList ++ List.replicate 47 ','))
    let agents := ["--Opera é", "", "x\ry"]
    (∃ catalog outcome, loadCatalog options files = .ok catalog ∧
      Asked args none files agents outcome ∧ outcome.exitCode = 0 ∧
        outcome.output = String.join (agents.map (answer true catalog))) ∧
    ∃ outcome, Asked args none (fun _ => .error .fileNotFound) agents outcome ∧
      outcome.output = "" := by
  intro args options files agents
  have h : GivesOnly args none options := ⟨by decide +kernel, rfl, by decide⟩
  have hfits : ∀ agent ∈ agents, FitsLine agent := by decide +kernel
  have hok : (loadCatalog options files).isOk = true := by decide +kernel
  constructor
  · cases hload : loadCatalog options files with
    | error error =>
      rw [hload] at hok
      cases hok
    | ok catalog =>
      obtain ⟨outcome, hasked⟩ :=
        ((asked_answers h files).1 catalog hload).1 agents (by decide) hfits
      exact ⟨catalog, outcome, rfl, hasked⟩
  · exact (asked_answers h _).2 (.io .fileNotFound) rfl agents

end AgentCatalog.CommandLine

import AgentCatalog.Catalog.Basic
import AgentCatalog.Proofs.Rule.Compilation

/-!
# Drafts after some calls

Patterns are added to a draft in any order, as they stand or in their normal form, and some of them
are refused. The draft then has the rules of the patterns that were not, except for those of a lone
`*`, and all of them are compiled with the literals of the draft:

* `after_eq`: what a draft has after some calls;
* `compiled_of_mem_rulesOf`: the rules of all calls are compiled, those of the first ones, too.
-/

namespace AgentCatalog

namespace Compiler

/-- The rules of the calls that succeed, in the order of the calls. -/
def rulesOf (c : Compiler) : List Call → List Rule
  | [] => []
  | call :: calls => (c.call call).1.toOption.toList ++ (c.call call).2.rulesOf calls

lemma compiled_of_call_eq_ok {c c' : Compiler} {call : Call} {rule : Rule}
    (h : c.call call = (.ok rule, c')) : rule.Compiled c'.registry := by
  rw [call_eq] at h
  exact (compiled_of_compile_eq_ok h).1

/-- A rule is still compiled when the calls after its own have been made. -/
theorem compiled_of_mem_rulesOf {c : Compiler} {calls : List Call} {rule : Rule}
    (h : rule ∈ c.rulesOf calls) : rule.Compiled (c.after calls).registry := by
  induction calls generalizing c with
  | nil => simp [rulesOf] at h
  | cons call calls ih =>
    rw [rulesOf, List.mem_append] at h
    rcases h with h | h
    · rcases hcall : c.call call with ⟨e | rule', c'⟩
      · simp [hcall, Except.toOption] at h
      · -- the calls that follow keep the handles of this rule
        obtain rfl : rule = rule' := by simpa [hcall, Except.toOption] using h
        have hcompiled := (compiled_of_call_eq_ok hcall).mono (extends_after c' calls)
        rw [after, List.foldl_cons, hcall]
        exact hcompiled
    · exact ih h

end Compiler

namespace CatalogDraft

/-- Add the pattern of a call. -/
def call (d : CatalogDraft) : Compiler.Call → Except CompileError Unit × CatalogDraft
  | .normal raw capabilities => d.add raw capabilities
  | .verbatim pattern capabilities => d.addVerbatim pattern capabilities

/-- The draft after some calls, whether they succeed or not. -/
def after (d : CatalogDraft) (calls : List Compiler.Call) : CatalogDraft :=
  calls.foldl (fun d call => (d.call call).2) d

lemma call_normal (d : CatalogDraft) (raw : String) (capabilities : Capabilities) :
    d.call (.normal raw capabilities) = d.add raw capabilities := rfl

lemma call_eq (d : CatalogDraft) (call : Compiler.Call) :
    d.call call = d.accept (d.compiler.call call) := by
  cases call <;> rfl

lemma after_nil (d : CatalogDraft) : d.after [] = d := rfl

lemma after_cons (d : CatalogDraft) (call : Compiler.Call) (calls : List Compiler.Call) :
    d.after (call :: calls) = (d.call call).2.after calls := rfl

lemma after_append (d : CatalogDraft) (calls later : List Compiler.Call) :
    d.after (calls ++ later) = (d.after calls).after later :=
  List.foldl_append

/-- One call adds the rule of its pattern, unless it is refused or a lone `*`. -/
lemma call_snd_eq (d : CatalogDraft) (call : Compiler.Call) :
    (d.call call).2.compiler = (d.compiler.call call).2 ∧
      (d.call call).2.added.toList = d.added.toList ++
        ((d.compiler.call call).1.toOption.toList.filter fun rule => !rule.isCatchAll) := by
  rw [call_eq]
  rcases d.compiler.call call with ⟨e | rule, c⟩
  · simp [accept, Except.toOption]
  · refine ⟨rfl, ?_⟩
    cases h : rule.isCatchAll <;> simp [accept, Except.toOption, h]

theorem after_eq (d : CatalogDraft) (calls : List Compiler.Call) :
    (d.after calls).compiler = d.compiler.after calls ∧
      (d.after calls).added.toList = d.added.toList ++
        ((d.compiler.rulesOf calls).filter fun rule => !rule.isCatchAll) := by
  induction calls generalizing d with
  | nil => simp [after, Compiler.after, Compiler.rulesOf]
  | cons call calls ih =>
    obtain ⟨hcompiler, hadded⟩ := ih (d.call call).2
    obtain ⟨hcompiler', hadded'⟩ := d.call_snd_eq call
    rw [hcompiler'] at hcompiler hadded
    rw [after_cons, hcompiler, hadded, hadded', Compiler.rulesOf, List.filter_append,
      List.append_assoc]
    exact ⟨rfl, rfl⟩

end CatalogDraft

end AgentCatalog

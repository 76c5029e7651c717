import AgentCatalog.Catalog.FirstByteIndex
import AgentCatalog.Rule.Compiler

/-!
# Catalogs

A catalog has the rules in the order in which they are tried, so that the first match is the most
specific one. Its last rule is that of the lone `*`, so every user agent has a match.

A catalog is built from patterns. Patterns that come to a lone `*` are dropped, as the last rule
stands for them; of rules with the same pattern the one added first is tried first.
-/

namespace AgentCatalog

/-- The rules in the order in which they are tried, with their literals and the index of their
positions. -/
structure Catalog where
  rules : Array Rule
  table : LiteralTable
  index : FirstByteIndex

/-- The rules added so far, in their order, and the compiler of their patterns. -/
structure CatalogDraft where
  compiler : Compiler
  added : Array Rule

namespace CatalogDraft

/-- Nothing has been added. -/
def empty : CatalogDraft :=
  ⟨.empty, #[]⟩

/-- The number of rules, without those of a lone `*`. -/
def size (d : CatalogDraft) : Nat :=
  d.added.size

/-- There are no rules but those of a lone `*`. -/
def isEmpty (d : CatalogDraft) : Bool :=
  d.added.isEmpty

/-- The counts of the compiler. -/
def counts (d : CatalogDraft) : CompileCounts :=
  d.compiler.counts

/-- The draft after a compilation. -/
def accept (d : CatalogDraft) :
    Except CompileError Rule × Compiler → Except CompileError Unit × CatalogDraft
  | (.error e, compiler) => (.error e, { d with compiler })
  | (.ok rule, compiler) =>
    (.ok (), ⟨compiler, if rule.isCatchAll then d.added else d.added.push rule⟩)

/-- Add the rule of the normal form of a pattern. -/
def add (d : CatalogDraft) (raw : String) (capabilities : Capabilities) :
    Except CompileError Unit × CatalogDraft :=
  d.accept (d.compiler.compileNormal raw capabilities)

/-- Add the rule of a pattern as it stands. -/
def addVerbatim (d : CatalogDraft) (pattern : String) (capabilities : Capabilities) :
    Except CompileError Unit × CatalogDraft :=
  d.accept (d.compiler.compile pattern capabilities)

/-- The rules in the order in which they are tried, the catch-all rule last. -/
def ranked (d : CatalogDraft) : List Rule :=
  d.added.toList.mergeSort (fun x y => (x.compare y).isLE) ++ [.catchAll]

/-- The catalog of the rules added. -/
def toCatalog (d : CatalogDraft) : Catalog :=
  let table := d.compiler.registry.toTable
  ⟨d.ranked.toArray, table, .ofRules d.ranked table⟩

end CatalogDraft

namespace Catalog

/-- The catalog with the catch-all rule only. -/
def empty : Catalog :=
  CatalogDraft.empty.toCatalog

instance : Inhabited Catalog := ⟨empty⟩

/-- The number of rules. -/
def size (c : Catalog) : Nat :=
  c.rules.size

/-- The bytes of a user agent, in lower case, as rules are matched against them. -/
def subject (agent : String) : List UInt8 :=
  Utf8.encode (Text.foldCase agent.toList)

/-- The rule matches the user agent, by the literals of the catalog. -/
def accepts (c : Catalog) (rule : Rule) (agent : String) : Bool :=
  rule.accepts c.table (subject agent)

/-- The last rule. -/
def lastRule (c : Catalog) : Rule :=
  c.rules.back?.getD .catchAll

/-- The first rule that matches the user agent, looked for among the candidates of the index. -/
def lookup (c : Catalog) (agent : String) : Rule :=
  let subject := subject agent
  let found := (c.index.candidates subject).findSome? fun position =>
    c.rules[position]?.filter (·.accepts c.table subject)
  found.getD c.lastRule

/-- The capabilities of a user agent. -/
def parse (c : Catalog) (agent : String) : Capabilities :=
  (c.lookup agent).capabilities

end Catalog

end AgentCatalog

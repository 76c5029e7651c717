import AgentCatalog.Catalog.Basic
import AgentCatalog.Layout.Document
import AgentCatalog.Loader.Error
import AgentCatalog.Loader.RecordReader

/-!
# Loading catalogs

A catalog is loaded from a source of records. The layout is checked before anything is read; then
every record of enough fields adds its rule. The first record that cannot be read, and the first
pattern that is not compiled, end the loading without a catalog.
-/

namespace AgentCatalog

/-- How a rule file is read. -/
structure LoadConfig where
  layout : Layout
  dialect : Csv.Dialect

namespace LoadConfig

/-- The configuration with the given layout: fields between commas, no header. -/
def ofLayout (layout : Layout) : LoadConfig :=
  ⟨layout, ⟨0x2C, false⟩⟩

/-- The configuration that is used if none is given. -/
def default : LoadConfig :=
  ofLayout .default

/-- The error of a configuration whose layout has a problem. -/
def check (config : LoadConfig) : Except LoadError Unit :=
  match config.layout.problem? with
  | some problem => .error (.invalid problem.message)
  | none => .ok ()

end LoadConfig

namespace Loader

/-- Add the rules of the records, up to the first pattern that is not compiled. -/
def addRecords (reader : RecordReader) (draft : CatalogDraft) :
    List (List String) → Except LoadError CatalogDraft
  | [] => .ok draft
  | record :: rest =>
    match reader.read record with
    | (none, reader) => addRecords reader draft rest
    | (some (pattern, capabilities), reader) =>
      match draft.add pattern capabilities with
      | (.error e, _) => .error (.compile e)
      | (.ok (), draft) => addRecords reader draft rest

/-- The catalog of some records, which may be ended by an error. -/
def ofRecords (layout : Layout) (records : List (List String)) (error : Option Csv.Error) :
    Except LoadError Catalog :=
  match addRecords (.ofLayout layout) .empty records with
  | .error e => .error e
  | .ok draft =>
    match error with
    | some e => .error (.ofCsv e)
    | none => .ok draft.toCatalog

/-- The catalog of a source of records. The source is asked for only when the layout is sound, and
may not be there. -/
def load (config : LoadConfig) (source : Except IoError Csv.Source) : Except LoadError Catalog := do
  config.check
  match source with
  | .error e => .error (.io e)
  | .ok source =>
    let (records, error) := source.records config.dialect
    ofRecords config.layout records error

end Loader

/-- The layout of a document. It has to be sound. -/
def Layout.ofDocument (document : String) : Except LoadError Layout :=
  match Layout.read? document with
  | none => .error .json
  | some layout =>
    match layout.problem? with
    | some problem => .error (.invalid problem.message)
    | none => .ok layout

end AgentCatalog

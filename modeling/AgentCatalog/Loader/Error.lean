import AgentCatalog.Csv.Source
import AgentCatalog.Rule.Compiler

/-!
# Why loading fails

The causes for which no catalog comes out, each with its message.
-/

namespace AgentCatalog

/-- A cause for which no catalog is loaded. -/
inductive LoadError where
  /-- The rules as a whole cannot be loaded. -/
  | rules (what : String)
  /-- A pattern is not compiled. -/
  | compile (cause : CompileError)
  /-- A record is not text. -/
  | csv (cause : Csv.InvalidUtf8)
  /-- A JSON document does not describe what it should. -/
  | json
  /-- A file cannot be read. -/
  | io (cause : IoError)
  /-- What was asked for does not make sense. -/
  | invalid (what : String)
deriving DecidableEq, Repr

namespace LoadError

/-- The message of an error. -/
def message : LoadError → String
  | .rules what => "规则加载失败：" ++ what
  | .compile cause => "规则编译失败：" ++ cause.message
  | .csv cause => "CSV解析失败：" ++ cause.message
  | .json => "JSON解析失败："
  | .io cause => "IO操作失败：" ++ cause.message
  | .invalid what => "无效输入：" ++ what

/-- The error of a source of records. -/
def ofCsv : Csv.Error → LoadError
  | .invalidUtf8 cause => .csv cause
  | .io cause => .io cause

end LoadError

/-- The error of a file that does not exist. -/
def IoError.fileNotFound : IoError :=
  ⟨.notFound, "No such file or directory (os error 2)"⟩

/-- The error of lines that are not well-formed UTF-8. -/
def IoError.invalidText : IoError :=
  ⟨.invalidData, "stream did not contain valid UTF-8"⟩

end AgentCatalog

import ReviewContext.Source.Imports
import ReviewContext.Source.Exports

/-! # What a file imports and exports

Reading a file never fails: a file of an unknown language has no imports and no exports. Comments are
gone before anything is looked for, and what stands in a literal is no statement.
-/

namespace ReviewContext

/-- The imports of a file that stay in the repository, and the names it declares for others; each is
listed once, where it first stands. -/
structure SourceRecord where
  language : Language
  imports : List String
  exports : List String
  deriving DecidableEq

namespace SourceRecord

def ofTokens (language : Language) (tokens : List Source.Token) : SourceRecord :=
  let text := tokens.flatMap Source.Token.kept
  let quoted := Source.quotation tokens
  let imports := (Source.Imports.written language text quoted).map Text.trim
  { language
    imports := Text.distinct ((imports.filter language.isRelative).map String.ofList)
    exports := Text.distinct ((Source.Exports.written language text quoted).map String.ofList) }

/-- Reads the text of the file at `path`. -/
def parse (path content : String) : SourceRecord :=
  let language := Language.ofPath path
  match language.commentStyle? with
  | none => ⟨language, [], []⟩
  | some style => ofTokens language (Source.tokens style content.toList)

/-- Whether an import mentions a base name. The empty name is mentioned by none. -/
def importsBaseName (record : SourceRecord) (base : String) : Bool :=
  !base.isEmpty && record.imports.any fun path =>
    Text.occursIn base.toList path.toList && record.language.isRelative path.toList

def isEmpty (record : SourceRecord) : Bool :=
  record.imports.isEmpty && record.exports.isEmpty

end SourceRecord

end ReviewContext

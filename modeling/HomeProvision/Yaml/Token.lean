import HomeProvision.Text.CodePoint

/-!
# Tokens of documents

The words of the notation: marks for the start and end of collections, where indentation counts as
a mark, and the scalars with their text already put together.
-/

namespace HomeProvision.Yaml

open HomeProvision.Text

/-- A line that instructs the reader, before a document. -/
inductive Directive where
  /-- The version of the notation; only its first number matters. -/
  | version (major : Nat)
  /-- A short form for the start of tags. -/
  | tagHandle (handle stem : String)
  /-- Any other instruction, which is passed over. -/
  | other
  deriving Repr, DecidableEq

/-- A token. -/
inductive Token where
  | streamEnd
  | directive (d : Directive)
  | documentStart
  | documentEnd
  | blockSequenceStart
  | blockMappingStart
  | blockEnd
  | flowSequenceStart
  | flowSequenceEnd
  | flowMappingStart
  | flowMappingEnd
  | flowEntry
  | blockEntry
  | key
  | value
  | alias (name : String)
  | anchor (name : String)
  | tag (handle : Option String) (suffix : String)
  | scalar (text : List CodePoint) (plain : Bool)
  deriving Repr, DecidableEq

end HomeProvision.Yaml

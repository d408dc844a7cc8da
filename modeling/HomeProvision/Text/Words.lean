import HomeProvision.Text.CodePoint

/-!
# Splitting a line into quoted words

Words are separated by space, tab, return and line feed. A backslash makes the next character an
ordinary one. Single quotes keep everything between them. Double quotes do so too, except that a
backslash still escapes the double quote and itself. Quoted and bare pieces that touch are one
word, and a pair of quotes with nothing in it is an empty word.
-/

namespace HomeProvision.Text

/-- Why a line is no list of words. -/
inductive WordsError where
  | openQuotation
  | danglingEscape
  deriving Repr, DecidableEq

/-- The wording of an error. -/
def WordsError.message : WordsError → String
  | .openQuotation => "No closing quotation"
  | .danglingEscape => "No escaped character"

/-- The characters that separate words. -/
def isWordGap (c : Char) : Bool :=
  c = ' ' || c = '\t' || c = '\r' || c = '\n'

/-- Where the next character stands, in a line whose characters are of the type `α`. -/
inductive WordState (α : Type) where
  /-- Between two words. -/
  | gap
  /-- Inside a word and outside quotes. -/
  | bare
  /-- After a backslash outside quotes. -/
  | bareEscape
  /-- Inside single quotes. -/
  | single
  /-- Inside double quotes. -/
  | double
  /-- After a backslash inside double quotes. -/
  | doubleEscape (backslash : α)
  deriving Repr, DecidableEq

/-- Reads on from a state with the characters of the current word, the last one first. Characters
are judged by what `view` makes of them. -/
def splitWordsFrom {α : Type} (view : α → Char) : WordState α → (word : List α) → List α →
    Except WordsError (List (List α))
  | .gap, _, [] => .ok []
  | .bare, word, [] => .ok [word.reverse]
  | .bareEscape, _, [] => .error .danglingEscape
  | .single, _, [] => .error .openQuotation
  | .double, _, [] => .error .openQuotation
  | .doubleEscape _, _, [] => .error .danglingEscape
  | .gap, word, c :: rest =>
      if isWordGap (view c) then splitWordsFrom view .gap word rest
      else if view c = '\\' then splitWordsFrom view .bareEscape [] rest
      else if view c = '\'' then splitWordsFrom view .single [] rest
      else if view c = '"' then splitWordsFrom view .double [] rest
      else splitWordsFrom view .bare [c] rest
  | .bare, word, c :: rest =>
      if isWordGap (view c) then (splitWordsFrom view .gap [] rest).map (word.reverse :: ·)
      else if view c = '\\' then splitWordsFrom view .bareEscape word rest
      else if view c = '\'' then splitWordsFrom view .single word rest
      else if view c = '"' then splitWordsFrom view .double word rest
      else splitWordsFrom view .bare (c :: word) rest
  | .bareEscape, word, c :: rest => splitWordsFrom view .bare (c :: word) rest
  | .single, word, c :: rest =>
      if view c = '\'' then splitWordsFrom view .bare word rest
      else splitWordsFrom view .single (c :: word) rest
  | .double, word, c :: rest =>
      if view c = '"' then splitWordsFrom view .bare word rest
      else if view c = '\\' then splitWordsFrom view (.doubleEscape c) word rest
      else splitWordsFrom view .double (c :: word) rest
  | .doubleEscape backslash, word, c :: rest =>
      if view c = '"' || view c = '\\' then splitWordsFrom view .double (c :: word) rest
      else splitWordsFrom view .double (c :: backslash :: word) rest

/-- The words of a line. -/
def splitWords (s : String) : Except WordsError (List String) :=
  (splitWordsFrom id .gap [] s.toList).map (·.map String.ofList)

/-- The words of a line of code points. -/
def splitPoints (ps : List CodePoint) : Except WordsError (List (List CodePoint)) :=
  splitWordsFrom CodePoint.seen .gap [] ps

end HomeProvision.Text

import HomeProvision.Yaml.Error
import HomeProvision.Yaml.Token

/-!
# The state of the tokeniser

The tokeniser walks over the text with a position, a stack of indentations and the places where a
key without a mark may have begun. Such a key is recognised only at its colon, so its mark is put
in afterwards.
-/

namespace HomeProvision.Yaml

open HomeProvision

/-! ## Classes of characters -/

/-- The characters that end a line. -/
def isBreak (c : Char) : Bool :=
  c = '\n' || c = '\r' || c = '\u0085' || c = '\u2028' || c = '\u2029'

/-- The end of a line or of the text, which reads as the character zero. -/
def isBreakOrEnd (c : Char) : Bool :=
  c = '\x00' || isBreak c

/-- A space, or the end of a line or of the text. -/
def isSpaceOrEnd (c : Char) : Bool :=
  c = ' ' || isBreakOrEnd c

/-- White space, or the end of a line or of the text. -/
def isGap (c : Char) : Bool :=
  c = '\t' || isSpaceOrEnd c

/-- The characters of names: of anchors, tag handles and directives. -/
def isNameChar (c : Char) : Bool :=
  c.isAlphanum || c = '-' || c = '_'

/-- The characters that a document may hold. -/
def isDocumentChar (c : Char) : Bool :=
  c = '\t' || c = '\n' || c = '\r' || (' ' ≤ c && c ≤ '~') || c = '\u0085' ||
    ('\u00a0' ≤ c && c.toNat ≤ 0xfffd) || 0x10000 ≤ c.toNat

/-! ## The state -/

/-- The place where a key without a mark may have begun. -/
structure KeyPlace where
  /-- How many tokens precede the key. -/
  token : Nat
  /-- Whether a colon has to follow. -/
  required : Bool
  index : Nat
  line : Nat
  column : Nat
  deriving Repr

/-- The state of the tokeniser. -/
structure Scanner where
  rest : List Char
  index : Nat := 0
  line : Nat := 0
  column : Nat := 0
  tokens : Array Token := #[]
  /-- How many flow collections are open. -/
  flow : Nat := 0
  indent : Int := -1
  indents : List Int := []
  /-- Whether a key without a mark may begin here. -/
  keyAllowed : Bool := true
  /-- The places of keys, by the number of open flow collections. -/
  keys : List (Nat × KeyPlace) := []

/-- A step of the tokeniser. -/
abbrev Scan := StateT Scanner (Except DocumentError)

namespace Scan

/-- The text is no document. -/
def refuse {α : Type} : Scan α :=
  throw .malformed

/-- Refuses unless a condition holds. -/
def demand (ok : Bool) : Scan Unit :=
  if ok then pure () else refuse

/-- The character `n` places ahead. -/
def peekAt (n : Nat) : Scan Char := do
  return (← get).rest.getD n '\x00'

/-- The next character. -/
def peek : Scan Char :=
  peekAt 0

/-- A state after its next character. -/
def pass (s : Scanner) : Scanner :=
  match s.rest with
  | [] => s
  | c :: rest =>
      let s := { s with rest, index := s.index + 1 }
      if isBreak c && !(c = '\r' && rest.head? = some '\n') then
        { s with line := s.line + 1, column := 0 }
      else if c = '\ufeff' then s
      else { s with column := s.column + 1 }

/-- Passes over `n` characters. -/
def forward (n : Nat) : Scan Unit :=
  modify fun s => n.repeat pass s

/-- Takes the next `n` characters. -/
def take (n : Nat) : Scan (List Char) := do
  let cs := (← get).rest.take n
  forward n
  return cs

/-- Takes characters as long as they are of a class. -/
def takeRun (p : Char → Bool) : Scan (List Char) := do
  let cs := (← get).rest.takeWhile p
  forward cs.length
  return cs

/-- Passes over spaces. -/
def skipSpaces : Scan Unit := do
  let _ ← takeRun (· = ' ')

/-- Passes over a comment, if one begins here. -/
def skipComment : Scan Unit := do
  if (← peek) = '#' then
    let _ ← takeRun (!isBreakOrEnd ·)

/-- Takes the end of a line, if it is here: the two separators stay, the others become a line
feed. -/
def lineBreak : Scan (List Char) := do
  let c ← peek
  if c = '\r' && (← peekAt 1) = '\n' then forward 2; return ['\n']
  else if c = '\n' || c = '\r' || c = '\u0085' then forward 1; return ['\n']
  else if c = '\u2028' || c = '\u2029' then forward 1; return [c]
  else return []

/-- Whether a mark that separates documents is here. -/
def atDocumentMark : Scan Bool := do
  let cs := (← get).rest.take 3
  return (cs = ['-', '-', '-'] || cs = ['.', '.', '.']) && isGap (← peekAt 3)

/-- The number of steps that the rest of the text allows. -/
def steps : Scan Nat := do
  return (← get).rest.length + 2

/-- Adds a token. -/
def emit (t : Token) : Scan Unit :=
  modify fun s => { s with tokens := s.tokens.push t }

/-- Puts a token before the token with the given number. -/
def emitAt (n : Nat) (t : Token) : Scan Unit :=
  modify fun s =>
    { s with tokens := (s.tokens.extract 0 n).push t ++ s.tokens.extract n s.tokens.size }

/-- Sets whether a key without a mark may begin here. -/
def allowKey (allowed : Bool) : Scan Unit :=
  modify fun s => { s with keyAllowed := allowed }

/-! ## Keys without a mark -/

/-- Forgets the places of keys that the position has left behind: a key and its colon stand on one
line, at most 1024 characters apart. -/
def dropStaleKeys : Scan Unit := do
  let s ← get
  let stale (k : KeyPlace) : Bool := k.line ≠ s.line || 1024 < s.index - k.index
  demand (!s.keys.any fun entry => stale entry.2 && entry.2.required)
  set { s with keys := s.keys.filter fun entry => !stale entry.2 }

/-- Forgets the place of a key at the current depth. -/
def dropKey : Scan Unit := do
  let s ← get
  demand (!((s.keys.lookup s.flow).any (·.required)))
  set { s with keys := s.keys.filter fun entry => entry.1 ≠ s.flow }

/-- Notes that a key may begin here. -/
def saveKey : Scan Unit := do
  if (← get).keyAllowed then
    dropKey
    let s ← get
    let place : KeyPlace := {
      token := s.tokens.size
      required := s.flow = 0 && s.indent = s.column
      index := s.index
      line := s.line
      column := s.column }
    set { s with keys := (s.flow, place) :: s.keys }

/-! ## Indentation -/

/-- The outermost open collections that are indented more than `column` end here. -/
def closeIndents (column : Int) (s : Scanner) : (stack : List Int) → Scanner
  | [] => s
  | outer :: stack =>
      if column < s.indent then
        closeIndents column
          { s with indent := outer, indents := stack, tokens := s.tokens.push .blockEnd } stack
      else s

/-- Ends the collections that are indented more than `column`, outside flow collections. -/
def unwind (column : Int) : Scan Unit :=
  modify fun s => if s.flow = 0 then closeIndents column s s.indents else s

/-- Opens a collection at a column if that is further in, and says whether it did. -/
def deepen (column : Nat) : Scan Bool := do
  let s ← get
  if s.indent < column then
    set { s with indent := (column : Int), indents := s.indent :: s.indents }
    return true
  else return false

end Scan

end HomeProvision.Yaml

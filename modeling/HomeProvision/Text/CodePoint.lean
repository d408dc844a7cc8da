import HomeProvision.Text.Quoted

/-!
# Code points

An escape in a document can name half of a surrogate pair, which is a code point but no character. A
text with such a half in it is no `String`. It can still be compared with words, where a half is as
good as any other unknown character, and it can be shown by its codes.
-/

namespace HomeProvision.Text

/-- A code point: a character, or half of a surrogate pair. -/
inductive CodePoint where
  | char (c : Char)
  | half (code : Nat)
  deriving Repr, DecidableEq, Inhabited

namespace CodePoint

/-- The number of a code point. -/
def code : CodePoint → Nat
  | char c => c.toNat
  | half code => code

/-- The character that a code point is, if it is one. -/
def char? : CodePoint → Option Char
  | char c => some c
  | half _ => none

/-- The character of a code point, and the replacement character for a half. No word and no numeral
holds that character. -/
def seen : CodePoint → Char
  | char c => c
  | half _ => '\ufffd'

/-- Characters as code points. -/
def ofChars (cs : List Char) : List CodePoint :=
  cs.map char

/-- The characters of code points, as far as they are characters. -/
def seenText (ps : List CodePoint) : String :=
  String.ofList (ps.map seen)

/-- The text that code points form, if there is no half among them. -/
def text? (ps : List CodePoint) : Option String :=
  (ps.mapM char?).map String.ofList

/-- A code point as it stands between quotes. -/
def quote (mark : Char) : CodePoint → List Char
  | char c => quoteChar mark c
  | half code => '\\' :: 'u' :: hexDigits 4 code

end CodePoint

/-- Code points between quotes, as `quoted` shows a text. -/
def quotedPoints (ps : List CodePoint) : String :=
  let mark := quoteFor (ps.map CodePoint.seen)
  String.ofList (mark :: ps.flatMap (CodePoint.quote mark) ++ [mark])

end HomeProvision.Text

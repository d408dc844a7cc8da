import HomeProvision.Text.Digit
import HomeProvision.Text.Printable

/-!
# Quoted texts in messages

A message shows a text between quotes: single quotes, or double quotes when the text holds a single
quote and no double quote. The backslash, the quote in use, line feed, return and tab are escaped,
and a character that cannot be shown is written by its code.
-/

namespace HomeProvision.Text

/-- The quote that surrounds a text: the single one unless only the double one is free. -/
def quoteFor (cs : List Char) : Char :=
  if cs.contains '\'' && !cs.contains '"' then '"' else '\''

/-- A character by the digits of its code, in the shortest of three widths. -/
def codeEscape (c : Char) : List Char :=
  if c.toNat < 0x100 then '\\' :: 'x' :: hexDigits 2 c.toNat
  else if c.toNat < 0x10000 then '\\' :: 'u' :: hexDigits 4 c.toNat
  else '\\' :: 'U' :: hexDigits 8 c.toNat

/-- A character as it stands between quotes. -/
def quoteChar (quote c : Char) : List Char :=
  if c = '\\' || c = quote then ['\\', c]
  else if c = '\n' then ['\\', 'n']
  else if c = '\r' then ['\\', 'r']
  else if c = '\t' then ['\\', 't']
  else if isPrintable c then [c]
  else codeEscape c

/-- A text between quotes, on one line and with every character visible. -/
def quoted (s : String) : String :=
  let quote := quoteFor s.toList
  String.ofList (quote :: s.toList.flatMap (quoteChar quote) ++ [quote])

/-- A byte as a character of the same code. -/
def charOfByte (b : UInt8) : Char :=
  Char.ofNat b.toNat

/-- A byte as it stands between quotes: only ASCII is shown as it is. -/
def quoteByte (quote : Char) (b : UInt8) : List Char :=
  if b < 0x80 then quoteChar quote (charOfByte b)
  else '\\' :: 'x' :: hexDigits 2 b.toNat

/-- Bytes between quotes, marked by a leading `b`. -/
def quotedBytes (bytes : List UInt8) : String :=
  let quote := quoteFor (bytes.map charOfByte)
  String.ofList ('b' :: quote :: bytes.flatMap (quoteByte quote) ++ [quote])

end HomeProvision.Text

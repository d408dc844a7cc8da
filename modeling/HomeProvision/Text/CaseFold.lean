/-!
# Letter case of ASCII words

Keywords are compared in one case. Only letters whose other case is ASCII can make a text equal to
an ASCII word, so these are the only ones that are mapped: the ASCII letters and a few letters
above them, among them the Kelvin sign, whose lower case is `k`.
-/

namespace HomeProvision.Text

/-- The lower case of a character where that is one ASCII letter, and else the character. -/
def lowerChar (c : Char) : Char :=
  if c = '\u212a' then 'k' else c.toLower

/-- The upper case of a character where that is ASCII, and else the character. -/
def upperChar (c : Char) : List Char :=
  match c.toNat with
  | 0x131 => ['I']
  | 0x17f => ['S']
  | 0xdf => ['S', 'S']
  | 0xfb00 => ['F', 'F']
  | 0xfb01 => ['F', 'I']
  | 0xfb02 => ['F', 'L']
  | 0xfb03 => ['F', 'F', 'I']
  | 0xfb04 => ['F', 'F', 'L']
  | 0xfb05 => ['S', 'T']
  | 0xfb06 => ['S', 'T']
  | _ => [c.toUpper]

/-- A text in lower case, as far as a comparison with ASCII words can tell. -/
def lowerCase (s : String) : String :=
  String.ofList (s.toList.map lowerChar)

/-- A text in upper case, as far as a comparison with ASCII words can tell. -/
def upperCase (s : String) : String :=
  String.ofList (s.toList.flatMap upperChar)

end HomeProvision.Text

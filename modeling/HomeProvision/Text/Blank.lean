/-!
# White space and lines

White space comes in three classes here, because three rules of the program differ in it:
trimming a line, trimming a numeral and splitting a text into lines.
-/

namespace HomeProvision.Text

/-- White space above the ASCII range: the separators of Unicode and the next-line control. -/
def isWideBlank (c : Char) : Bool :=
  c = '\u0085' || c = '\u00a0' || c = '\u1680' ||
    ('\u2000' ≤ c && c ≤ '\u200a') ||
    c = '\u2028' || c = '\u2029' || c = '\u202f' || c = '\u205f' || c = '\u3000'

/-- The blanks of a terminal: space, tab, line feed, vertical tab, form feed and return. -/
def isPlainBlank (c : Char) : Bool :=
  c = ' ' || ('\t' ≤ c && c ≤ '\r')

/-- White space around a numeral. The four ASCII separator controls do not count. -/
def isNumeralBlank (c : Char) : Bool :=
  isPlainBlank c || isWideBlank c

/-- White space around a word or a line, the four ASCII separator controls included. -/
def isBlank (c : Char) : Bool :=
  isPlainBlank c || ('\x1c' ≤ c && c ≤ '\x1f') || isWideBlank c

/-- The characters that end a line. -/
def isLineBreak (c : Char) : Bool :=
  ('\n' ≤ c && c ≤ '\r') || ('\x1c' ≤ c && c ≤ '\x1e') ||
    c = '\u0085' || c = '\u2028' || c = '\u2029'

/-- The text without the characters of a class at its end. -/
def trimEnd (blank : Char → Bool) (cs : List Char) : List Char :=
  (cs.reverse.dropWhile blank).reverse

/-- The text without the characters of a class at either end. -/
def trimBoth (blank : Char → Bool) (cs : List Char) : List Char :=
  trimEnd blank (cs.dropWhile blank)

/-- The text without the white space around it. -/
def trim (cs : List Char) : List Char :=
  trimBoth isBlank cs

/-- The lines of a text without their ends. A return and the line feed after it are one end,
and an end that closes the text opens no further line. -/
def splitLines : List Char → List (List Char)
  | [] => []
  | '\r' :: '\n' :: rest => [] :: splitLines rest
  | c :: rest =>
      if isLineBreak c then [] :: splitLines rest
      else
        match splitLines rest with
        | [] => [[c]]
        | line :: lines => (c :: line) :: lines

end HomeProvision.Text

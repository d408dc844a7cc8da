import HomeProvision.Text.Blank
import HomeProvision.Text.Digit

/-!
# Reading integers

An integer is written as an optional sign and digits, with white space around the whole and single
underscores between digits. Digits of every script count. A numeral in base eight may carry the
mark `0o` or `0O` after its sign, and an underscore may follow the mark.
-/

namespace HomeProvision.Number

open HomeProvision.Text

/-- A character with a digit of any script replaced by the ASCII digit of its value. -/
def plainDigit (c : Char) : Char :=
  match digitValue? c with
  | some d => hexDigit d
  | none => c

/-- The value of an ASCII digit in a base of at most ten. -/
def digitBelow? (base : Nat) (c : Char) : Option Nat :=
  if c.isDigit && c.toNat - '0'.toNat < base then some (c.toNat - '0'.toNat) else none

/-- The digits of a numeral, with single underscores between them left out. -/
def groupedDigits? (base : Nat) : List Char → Option (List Nat)
  | [] => none
  | [c] => (digitBelow? base c).map ([·])
  | c :: '_' :: rest =>
      match digitBelow? base c, groupedDigits? base rest with
      | some d, some ds => some (d :: ds)
      | _, _ => none
  | c :: rest =>
      match digitBelow? base c, groupedDigits? base rest with
      | some d, some ds => some (d :: ds)
      | _, _ => none

/-- The number that digits denote, most significant first. -/
def ofDigits (base : Nat) (digits : List Nat) : Nat :=
  digits.foldl (fun n d => n * base + d) 0

/-- A leading sign, true for minus, and what follows it. -/
def splitSign : List Char → Bool × List Char
  | '-' :: rest => (true, rest)
  | '+' :: rest => (false, rest)
  | cs => (false, cs)

/-- A number with a sign, true for minus. -/
def withSign (negative : Bool) (n : Nat) : Int :=
  if negative then -(n : Int) else n

/-- A numeral without the mark for base eight and an underscore right after that. -/
def dropOctalMark : List Char → List Char
  | '0' :: m :: rest =>
      if m = 'o' || m = 'O' then
        match rest with
        | '_' :: digits => digits
        | _ => rest
      else '0' :: m :: rest
  | cs => cs

/-- The text between the surrounding blanks, all digits in ASCII. -/
def numeralBody (cs : List Char) : List Char :=
  (trimBoth isNumeralBlank cs).map plainDigit

/-- The integer that a text denotes in base eight. -/
def octal? (s : String) : Option Int :=
  let (negative, body) := splitSign (numeralBody s.toList)
  (groupedDigits? 8 (dropOctalMark body)).map fun ds => withSign negative (ofDigits 8 ds)

/-- The most digits that a decimal numeral may have. -/
def decimalDigitLimit : Nat := 4300

/-- The integer that a text denotes in base ten. Overlong numerals are refused. -/
def decimal? (s : String) : Option Int :=
  let (negative, body) := splitSign (numeralBody s.toList)
  match groupedDigits? 10 body with
  | some ds =>
      if ds.length ≤ decimalDigitLimit then some (withSign negative (ofDigits 10 ds)) else none
  | none => none

end HomeProvision.Number

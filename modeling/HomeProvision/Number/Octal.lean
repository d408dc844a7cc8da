import HomeProvision.Text.Digit

/-!
# Writing integers in base eight

Modes are shown in base eight: bare in messages, padded to four places in the log and with the mark
`0o` in records of calls.
-/

namespace HomeProvision.Number

/-- The digits of a number in base eight, most significant first and without leading zeros. -/
def octalDigits (n : Nat) : List Char :=
  if n < 8 then [HomeProvision.Text.hexDigit n]
  else octalDigits (n / 8) ++ [HomeProvision.Text.hexDigit (n % 8)]

/-- The sign of an integer as it is written: nothing unless it is negative. -/
def signText (n : Int) : List Char :=
  if n < 0 then ['-'] else []

/-- An integer in base eight. -/
def octalText (n : Int) : String :=
  String.ofList (signText n ++ octalDigits n.natAbs)

/-- An integer in base eight with the mark for the base after the sign. -/
def markedOctal (n : Int) : String :=
  String.ofList (signText n ++ '0' :: 'o' :: octalDigits n.natAbs)

/-- An integer in base eight, filled up with zeros after the sign to four places. -/
def paddedOctal (n : Int) : String :=
  let lead := signText n
  let digits := octalDigits n.natAbs
  String.ofList (lead ++ List.replicate (4 - (lead.length + digits.length)) '0' ++ digits)

end HomeProvision.Number

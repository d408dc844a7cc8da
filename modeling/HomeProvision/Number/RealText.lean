import HomeProvision.Number.Numeral

/-!
# Reading floating-point numbers

A floating-point number is written as an optional sign, digits with an optional point among them,
and an optional exponent, or as a word for infinity or for no number. Digits of every script count,
and white space may surround the whole.
-/

namespace HomeProvision.Number

open HomeProvision.Text

/-- The number that ASCII digits denote. -/
def digitsValue (cs : List Char) : Nat :=
  cs.foldl (fun n c => n * 10 + (c.toNat - '0'.toNat)) 0

/-- `mantissa · 10 ^ power`, rounded to the nearest floating-point number. Powers far outside the
range are not computed. -/
def scaled (mantissa : Nat) (power : Int) : Float :=
  let top := (toString mantissa).length + power
  if mantissa = 0 || top < -400 then 0.0
  else if 400 < top then 1.0 / 0.0
  else Float.ofScientific mantissa (power < 0) power.natAbs

/-- The exponent at the end of a number: zero where there is none. -/
def exponent? : List Char → Option Int
  | [] => some 0
  | e :: rest =>
      if e = 'e' || e = 'E' then
        let (negative, ds) := splitSign rest
        if !ds.isEmpty && ds.all Char.isDigit then some (withSign negative (digitsValue ds))
        else none
      else none

/-- A number without a sign. -/
def unsignedReal? (cs : List Char) : Option Float :=
  let word := String.ofList (cs.map Char.toLower)
  if word = "inf" || word = "infinity" then some (1.0 / 0.0)
  else if word = "nan" then some (0.0 / 0.0)
  else
    let whole := cs.takeWhile Char.isDigit
    let rest := cs.dropWhile Char.isDigit
    let (places, rest) :=
      match rest with
      | '.' :: rest => (rest.takeWhile Char.isDigit, rest.dropWhile Char.isDigit)
      | rest => ([], rest)
    if whole.isEmpty && places.isEmpty then none
    else (exponent? rest).map fun e => scaled (digitsValue (whole ++ places)) (e - places.length)

/-- The floating-point number that a text denotes. -/
def real? (cs : List Char) : Option Float :=
  let (negative, body) := splitSign (numeralBody cs)
  (unsignedReal? body).map fun x => if negative then -x else x

end HomeProvision.Number

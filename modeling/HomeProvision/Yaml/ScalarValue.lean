import HomeProvision.Data.Value
import HomeProvision.Number.RealText
import HomeProvision.Text.Base64
import HomeProvision.Text.LowerCase
import HomeProvision.Yaml.Error
import HomeProvision.Yaml.Tag

/-!
# Values of scalars

What a scalar of each kind stands for. Integers keep their text, since the settings read modes in
base eight however they are spelled.
-/

namespace HomeProvision.Yaml

open HomeProvision HomeProvision.Data HomeProvision.Text

namespace ScalarValue

/-- A truth value. -/
def ofBool (ps : List CodePoint) : Except DocumentError Value :=
  let lower := CodePoint.lower ps
  let word := CodePoint.seenText lower
  if ["yes", "true", "on"].contains word then .ok (.bool true)
  else if ["no", "false", "off"].contains word then .ok (.bool false)
  else .error (.badBool (quotedPoints lower))

/-- The parts of a text between colons. -/
def splitColons : List CodePoint → List (List CodePoint)
  | [] => [[]]
  | p :: rest =>
      if p = .char ':' then [] :: splitColons rest
      else
        match splitColons rest with
        | [] => [[p]]
        | part :: parts => (p :: part) :: parts

/-- A floating-point number, or the error that shows its text. -/
def real (ps : List CodePoint) : Except DocumentError Float :=
  match Number.real? (ps.map CodePoint.seen) with
  | some x => .ok x
  | none => .error (.badFloat (quotedPoints ps))

/-- The floating-point number nearest to a natural number, which must not be out of range. -/
def nearest (n : Nat) : Except DocumentError Float :=
  let x := Number.scaled n 0
  if x.isInf then .error .floatOverflow else .ok x

/-- The number whose places in base sixty are given, the last one first; `unit` is the worth of the
next place. -/
def inBaseSixty : (unit : Nat) → (sum : Float) → List Float → Except DocumentError Float
  | _, sum, [] => .ok sum
  | unit, sum, place :: places => do
      inBaseSixty (unit * 60) (sum + place * (← nearest unit)) places

/-- A floating-point number: with underscores left out, as a word, in base sixty or in base ten. -/
def ofFloat (ps : List CodePoint) : Except DocumentError Value :=
  match CodePoint.lower (ps.filter (· ≠ .char '_')) with
  | [] => .error .emptyFloat
  | p :: rest => do
      let sign : Float := if p = .char '-' then -1 else 1
      let body := if p = .char '-' || p = .char '+' then rest else p :: rest
      if CodePoint.seenText body = ".inf" then return .float (sign * (1.0 / 0.0))
      else if CodePoint.seenText body = ".nan" then return .nan 0
      else if body.contains (.char ':') then
        let places ← (splitColons body).mapM real
        return .float (sign * (← inBaseSixty 1 0 places.reverse))
      else return .float (sign * (← real body))

/-- The first six digits of a fraction, filled up with zeros. -/
def microseconds (digits : List Char) : Nat :=
  let taken := digits.take 6
  Number.digitsValue (taken ++ List.replicate (6 - taken.length) '0')

/-- The offset that a zone denotes, in seconds. -/
def zoneOffset : Option (Char × List Char × List Char) → Int
  | none => 0
  | some (sign, hours, minutes) =>
      Number.withSign (sign = '-')
        (Number.digitsValue hours * 3600 + Number.digitsValue minutes * 60)

/-- A date or a moment. One line feed at the end is passed over. -/
def ofTimestamp (ps : List CodePoint) : Except DocumentError Value :=
  match Tag.timestampParts? (Tag.dropFinalBreak (ps.map CodePoint.seen)) with
  | none => .error .badTimestamp
  | some parts =>
      let year := Number.digitsValue parts.year
      let month := Number.digitsValue parts.month
      let day := Number.digitsValue parts.day
      let result :=
        match parts.time with
        | none => (Date.make year month day).map Value.date
        | some (hour, minute, second, fraction) =>
            (Moment.make year month day (Number.digitsValue hour) (Number.digitsValue minute)
              (Number.digitsValue second) (microseconds fraction)
              (parts.zone.map zoneOffset)).map Value.moment
      result.mapError .calendar

/-- Bytes. -/
def ofBinary (ps : List CodePoint) : Except DocumentError Value :=
  match base64? (ps.map CodePoint.seen) with
  | some bytes => .ok (.bytes bytes)
  | none => .error .malformed

/-- The value of a scalar by its kind. The kinds of collections have no scalars, and the marks of
mappings and unknown tags have no value. -/
def ofText (tag : Tag) (ps : List CodePoint) : Except DocumentError Value :=
  match tag with
  | .null => .ok .null
  | .bool => ofBool ps
  | .int => .ok (.ofPoints ps)
  | .float => ofFloat ps
  | .timestamp => ofTimestamp ps
  | .binary => ofBinary ps
  | .text => .ok (.ofPoints ps)
  | _ => .error .malformed

end ScalarValue

end HomeProvision.Yaml

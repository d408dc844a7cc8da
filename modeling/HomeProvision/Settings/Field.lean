import HomeProvision.Data.Value
import HomeProvision.Number.Numeral
import HomeProvision.Settings.Basic
import HomeProvision.Text.CaseFold

/-!
# Settings and requests from named fields

Callers may pass the fields of a record by name with values of loose types. A truth value may be
given as 0 or 1 or as one of the usual words, an integer as a truth value, a number without a
fraction or a decimal text. Unknown names are passed over, and every field that cannot be read is
reported.
-/

namespace HomeProvision

open HomeProvision.Data HomeProvision.Text

/-- The values that a caller gives, by name. -/
abbrev Fields := List (String × Value)

namespace Field

/-- The words for false. -/
def falseWords : List String := ["0", "off", "f", "false", "n", "no"]

/-- The words for true. -/
def trueWords : List String := ["1", "on", "t", "true", "y", "yes"]

/-- A text in lower case, ASCII letters only. -/
def asciiLower (s : String) : String :=
  String.ofList (s.toList.map Char.toLower)

/-- The integer that a number without a fraction is. -/
def integral (x : Float) : Except FieldProblem Int :=
  if x.isNaN || x.isInf then .error .notFinite
  else if x.floor != x then .error .fractional
  else if -9223372036854775808.0 < x && x < 9223372036854775808.0 then .ok x.toInt64.toInt
  else .error .oversized

/-- A truth value. An integer beyond 64 bits is not taken for an unclear one. -/
def readBool : Value → Except FieldProblem Bool
  | .bool b => .ok b
  | .text s =>
      if falseWords.contains (asciiLower s) then .ok false
      else if trueWords.contains (asciiLower s) then .ok true
      else .error .unclearBool
  | .int n =>
      if n = 0 then .ok false
      else if n = 1 then .ok true
      else if -0x8000000000000000 ≤ n && n < 0x8000000000000000 then .error .unclearBool
      else .error .notBool
  | .float x =>
      match integral x with
      | .ok 0 => .ok false
      | .ok 1 => .ok true
      | .ok _ => .error .unclearBool
      | .error _ => .error .notBool
  | _ => .error .notBool

/-- What is wrong with a text that is no plain integer. -/
inductive PlainFault where
  /-- Its digits are too many, whatever follows them. -/
  | tooLong
  | notPlain
  deriving Repr, DecidableEq

/-- A plain decimal integer: an optional minus sign and digits, without a leading zero. The sign
counts for the length. -/
def plainInt (cs : List Char) : Except PlainFault Int :=
  let negative := cs.head? = some '-'
  let body := if negative then cs.drop 1 else cs
  let digits := body.takeWhile Char.isDigit
  if body = ['0'] then .ok 0
  else if digits.isEmpty || digits.head? = some '0' then .error .notPlain
  else if Number.decimalDigitLimit < digits.length + (if negative then 1 else 0) then
    .error .tooLong
  else if digits ≠ body then .error .notPlain
  else .ok (Number.withSign negative (Number.ofDigits 10 (digits.map fun d => d.toNat - '0'.toNat)))

/-- Drops zeros and underscores up to another digit or a minus sign, or up to the character before a
point. `before` is the character just passed. -/
def skipZeros (before : Char) : List Char → Option (List Char)
  | [] => some [before]
  | c :: rest =>
      if c = '0' || c = '_' then skipZeros c rest
      else if c.isDigit || c = '-' then some (c :: rest)
      else if c = '.' then some (before :: c :: rest)
      else none

/-- Drops leading zeros. A text that starts with neither a digit nor a minus sign is refused. -/
def dropLeadingZeros : List Char → Option (List Char)
  | [] => none
  | c :: rest =>
      if c = '0' then skipZeros c rest
      else if c.isDigit || c = '-' then some (c :: rest)
      else none

/-- Drops a point and the zeros after it. A point at the end is refused. -/
def dropZeroFraction (cs : List Char) : Option (List Char) :=
  let whole := cs.takeWhile (· ≠ '.')
  match cs.drop whole.length with
  | [] => some cs
  | [_] => none
  | _ :: places => if places.all (· = '0') then some whole else some cs

/-- Whether underscores stand between other characters only, and singly. -/
def underscoresApart : List Char → Bool
  | '_' :: '_' :: _ => false
  | ['_'] => false
  | _ :: rest => underscoresApart rest
  | [] => true

/-- Drops underscores where they stand singly between other characters. -/
def dropUnderscores (cs : List Char) : List Char :=
  if cs.head? ≠ some '_' && underscoresApart cs then cs.filter (· ≠ '_') else cs

/-- A decimal text reduced to plain form: without blanks, plus sign, leading zeros, a zero fraction
and underscores. A minus sign is put back in front of what is left. -/
def reduceDecimal (cs : List Char) : Option (List Char) := do
  let body := trimBoth isNumeralBlank cs
  let (sign, digits) ←
    match body with
    | '+' :: '-' :: _ => none
    | '+' :: rest => some ([], rest)
    | '-' :: rest => some (['-'], rest)
    | rest => some ([], rest)
  let whole ← dropZeroFraction (← dropLeadingZeros digits)
  return sign ++ dropUnderscores whole

/-- The integer that a decimal text gives: as it stands, or in plain form. -/
def decimalField (s : String) : Except FieldProblem Int :=
  match plainInt s.toList with
  | .ok n => .ok n
  | .error .tooLong => .error .oversized
  | .error .notPlain =>
      match (reduceDecimal s.toList).map plainInt with
      | some (.ok n) => .ok n
      | _ => .error .unclearInt

/-- An integer. -/
def readInt : Value → Except FieldProblem Int
  | .int n => .ok n
  | .bool b => .ok (if b then 1 else 0)
  | .float x => integral x
  | .text s => decimalField s
  | _ => .error .notInt

/-- A text. -/
def readText : Value → Except FieldProblem String
  | .text s => .ok s
  | _ => .error .notText

/-- A text or nothing. -/
def readTextOrNull : Value → Except FieldProblem (Option String)
  | .null => .ok none
  | v => (readText v).map some

/-- A permission mode. -/
def readMode (v : Value) : Except FieldProblem Mode :=
  readInt v >>= checkMode

/-- An owner's number. -/
def readOwner (v : Value) : Except FieldProblem Nat :=
  readInt v >>= checkOwner

/-- The field under a name, or a default. -/
def optional {α : Type} (fields : Fields) (name : String) (read : Value → Except FieldProblem α)
    (default : α) : Except FieldProblem α :=
  match fields.lookup name with
  | some v => read v
  | none => .ok default

/-- The field under a name, which must be there. -/
def required {α : Type} (fields : Fields) (name : String) (read : Value → Except FieldProblem α) :
    Except FieldProblem α :=
  match fields.lookup name with
  | some v => read v
  | none => .error .missing

end Field

/-- Settings from fields, or every problem in them. -/
def Settings.ofFields (fields : Fields) : Except Invalid Settings :=
  let enabled := Field.optional fields "enabled" Field.readBool false
  let finalMode := Field.optional fields "final_mode" Field.readMode Mode.home
  let intermediateMode :=
    Field.optional fields "intermediate_mode" Field.readMode Mode.intermediate
  let skeleton := Field.optional fields "skeleton_source" Field.readTextOrNull none
  match enabled, finalMode, intermediateMode, skeleton with
  | .ok enabled, .ok finalMode, .ok intermediateMode, .ok skeleton =>
      .ok { enabled, finalMode, intermediateMode, skeleton }
  | _, _, _, _ =>
      .error ⟨.settings,
        problemIn "enabled" enabled ++ problemIn "final_mode" finalMode ++
          problemIn "intermediate_mode" intermediateMode ++ problemIn "skeleton_source" skeleton⟩

/-- A request from fields, or every problem in them. -/
def Request.ofFields (fields : Fields) : Except Invalid Request :=
  let target := Field.required fields "target_path" Field.readText
  let ownerUid := Field.required fields "owner_uid" Field.readOwner
  let ownerGid := Field.required fields "owner_gid" Field.readOwner
  let intermediateMode :=
    Field.optional fields "intermediate_mode" Field.readMode Mode.intermediate
  let finalMode := Field.optional fields "final_mode" Field.readMode Mode.home
  let skeleton := Field.optional fields "skeleton_source" Field.readTextOrNull none
  match target, ownerUid, ownerGid, intermediateMode, finalMode, skeleton with
  | .ok target, .ok ownerUid, .ok ownerGid, .ok intermediateMode, .ok finalMode, .ok skeleton =>
      .ok { target, ownerUid, ownerGid, intermediateMode, finalMode, skeleton }
  | _, _, _, _, _, _ =>
      .error ⟨.request,
        problemIn "target_path" target ++ problemIn "owner_uid" ownerUid ++
          problemIn "owner_gid" ownerGid ++ problemIn "intermediate_mode" intermediateMode ++
          problemIn "final_mode" finalMode ++ problemIn "skeleton_source" skeleton⟩

/-- The fields of the request that the settings give for a target and its owner. -/
def Settings.requestFields (s : Settings) (target uid gid : Value) : Fields :=
  [("target_path", target), ("owner_uid", uid), ("owner_gid", gid),
    ("intermediate_mode", .int s.intermediateMode.toInt), ("final_mode", .int s.finalMode.toInt),
    ("skeleton_source", (s.skeleton.map Value.text).getD .null)]

end HomeProvision

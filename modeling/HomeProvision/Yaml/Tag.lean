/-!
# The kinds of nodes

Every node has a tag. A scalar without quotes and without a tag of its own gets the tag of the
first pattern that its text matches: truth words, fractions, integers, the merge mark, null words,
timestamps and the value mark. Anything else is text. Integers may be written in base two, eight,
ten, sixteen and sixty.
-/

namespace HomeProvision.Yaml

/-- The kind of a node. -/
inductive Tag where
  | null
  | bool
  | int
  | float
  | timestamp
  | binary
  | text
  | sequence
  | mapping
  | set
  | orderedMapping
  | pairs
  | merge
  | default
  | unknown
  deriving Repr, DecidableEq

namespace Tag

/-- The start of the tags that have a meaning. -/
def standardStem : String := "tag:yaml.org,2002:"

/-- The kind that a full tag names. -/
def ofName (name : String) : Tag :=
  let known : List (String × Tag) := [
    ("null", null), ("bool", bool), ("int", int), ("float", float), ("timestamp", timestamp),
    ("binary", binary), ("str", text), ("seq", sequence), ("map", mapping), ("set", set),
    ("omap", orderedMapping), ("pairs", pairs), ("merge", merge), ("value", default)]
  ((known.map fun entry => (standardStem ++ entry.1, entry.2)).lookup name).getD unknown

/-! ## Patterns of plain scalars -/

/-- The words for truth values. -/
def boolWords : List String :=
  ["yes", "Yes", "YES", "no", "No", "NO", "true", "True", "TRUE", "false", "False", "FALSE",
    "on", "On", "ON", "off", "Off", "OFF"]

/-- The words for null. -/
def nullWords : List String := ["~", "null", "Null", "NULL", ""]

/-- A text without one leading sign. -/
def dropSign : List Char → List Char
  | '+' :: rest => rest
  | '-' :: rest => rest
  | cs => cs

/-- A digit or an underscore. -/
def isDigitOrUnderscore (c : Char) : Bool :=
  c.isDigit || c = '_'

/-- A digit from zero to `top`, or an underscore. -/
def isDigitUpTo (top : Char) (c : Char) : Bool :=
  ('0' ≤ c && c ≤ top) || c = '_'

/-- A hexadecimal digit or an underscore. -/
def isHexOrUnderscore (c : Char) : Bool :=
  c.isDigit || ('a' ≤ c && c ≤ 'f') || ('A' ≤ c && c ≤ 'F') || c = '_'

/-- Whether a text is not empty and all its characters are of a class. -/
def isRun (p : Char → Bool) (cs : List Char) : Bool :=
  !cs.isEmpty && cs.all p

/-- A place of a number in base sixty: a colon and one or two digits below sixty. What follows the
last such place, if there is one. -/
def sixties? : List Char → Option (List Char)
  | ':' :: a :: b :: rest =>
      if a.isDigit && b.isDigit then
        if a ≤ '5' then some ((sixties? rest).getD rest) else none
      else if a.isDigit then some ((sixties? (b :: rest)).getD (b :: rest))
      else none
  | [':', a] => if a.isDigit then some [] else none
  | _ => none

/-- A text without its leading digits and underscores. -/
def dropDigits (cs : List Char) : List Char :=
  cs.dropWhile isDigitOrUnderscore

/-- A signed exponent, or nothing. -/
def isExponent : List Char → Bool
  | [] => true
  | e :: sign :: digits =>
      (e = 'e' || e = 'E') && (sign = '+' || sign = '-') && isRun Char.isDigit digits
  | _ => false

/-- The spelling of an integer. -/
def isInt (cs : List Char) : Bool :=
  match dropSign cs with
  | ['0'] => true
  | '0' :: 'b' :: digits => isRun (isDigitUpTo '1') digits
  | '0' :: 'x' :: digits => isRun isHexOrUnderscore digits
  | '0' :: digits => isRun (isDigitUpTo '7') digits
  | c :: rest =>
      c.isDigit && (rest.all isDigitOrUnderscore || sixties? (dropDigits rest) = some [])
  | [] => false

/-- The fraction of a number after its point. -/
def isFraction (cs : List Char) : Bool :=
  isExponent (dropDigits cs)

/-- The spelling of a number with a fraction. -/
def isFloat (cs : List Char) : Bool :=
  let signed :=
    match dropSign cs with
    | '.' :: word => ["inf".toList, "Inf".toList, "INF".toList].contains word
    | c :: rest =>
        c.isDigit &&
          match dropDigits rest with
          | '.' :: fraction => isFraction fraction
          | places =>
              match sixties? places with
              | some ('.' :: digits) => digits.all isDigitOrUnderscore
              | _ => false
    | [] => false
  let unsigned :=
    match cs with
    | '.' :: word =>
        ["nan".toList, "NaN".toList, "NAN".toList].contains word ||
          ((word.head?.map Char.isDigit).getD false && isFraction word)
    | _ => false
  signed || unsigned

/-! ## Timestamps -/

/-- The parts of a timestamp as they are written. -/
structure TimestampParts where
  year : List Char
  month : List Char
  day : List Char
  /-- Hour, minute, second and the digits of the fraction. -/
  time : Option (List Char × List Char × List Char × List Char) := none
  /-- The zone: universal time, or a sign with hours and minutes. -/
  zone : Option (Option (Char × List Char × List Char)) := none
  deriving Repr

/-- One or two digits and what follows them. -/
def oneOrTwoDigits? : List Char → Option (List Char × List Char)
  | a :: b :: rest =>
      if a.isDigit && b.isDigit then some ([a, b], rest)
      else if a.isDigit then some ([a], b :: rest)
      else none
  | [a] => if a.isDigit then some ([a], []) else none
  | [] => none

/-- Two digits and what follows them. -/
def twoDigits? : List Char → Option (List Char × List Char)
  | a :: b :: rest => if a.isDigit && b.isDigit then some ([a, b], rest) else none
  | _ => none

/-- A text without a given first character. -/
def after? (c : Char) : List Char → Option (List Char)
  | d :: rest => if c = d then some rest else none
  | [] => none

/-- A zone and nothing after it: `Z`, or a sign, hours and perhaps minutes. -/
def zone? (cs : List Char) : Option (Option (Char × List Char × List Char)) :=
  match cs with
  | ['Z'] => some none
  | sign :: rest =>
      if sign = '+' || sign = '-' then do
        let (hours, rest) ← oneOrTwoDigits? rest
        if rest.isEmpty then some (some (sign, hours, []))
        else
          let (minutes, rest) ← twoDigits? (← after? ':' rest)
          if rest.isEmpty then some (some (sign, hours, minutes)) else none
      else none
  | [] => none

/-- A blank between date, time and zone. -/
def isTimeBlank (c : Char) : Bool :=
  c = ' ' || c = '\t'

/-- What separates a date from a time: a letter, or blanks. -/
def afterDateGap? : List Char → Option (List Char)
  | [] => none
  | c :: rest =>
      if c = 'T' || c = 't' then some rest
      else if isTimeBlank c then some (rest.dropWhile isTimeBlank)
      else none

/-- The parts of a timestamp. -/
def timestampParts? (cs : List Char) : Option TimestampParts := do
  let (century, rest) ← twoDigits? cs
  let (decade, rest) ← twoDigits? rest
  let (month, rest) ← oneOrTwoDigits? (← after? '-' rest)
  let (day, rest) ← oneOrTwoDigits? (← after? '-' rest)
  let date : TimestampParts := { year := century ++ decade, month, day }
  if rest.isEmpty then return date
  let (hour, rest) ← oneOrTwoDigits? (← afterDateGap? rest)
  let (minute, rest) ← twoDigits? (← after? ':' rest)
  let (second, rest) ← twoDigits? (← after? ':' rest)
  let (fraction, rest) :=
    match rest with
    | '.' :: rest => (rest.takeWhile Char.isDigit, rest.dropWhile Char.isDigit)
    | rest => ([], rest)
  let timed := { date with time := some (hour, minute, second, fraction) }
  if rest.isEmpty then return timed
  return { timed with zone := some (← zone? (rest.dropWhile isTimeBlank)) }

/-- The spelling of a timestamp: a date alone has two digits for month and day. -/
def isTimestamp (cs : List Char) : Bool :=
  match timestampParts? cs with
  | some parts => parts.time.isSome || (parts.month.length = 2 && parts.day.length = 2)
  | none => false

/-- A text without one line feed at its end, unless that is all there is. -/
def dropFinalBreak (cs : List Char) : List Char :=
  if 1 < cs.length && cs.getLast? = some '\n' then cs.dropLast else cs

/-- The kind of a scalar by its spelling. A line feed at its end is passed over. -/
def ofPlain (spelling : String) : Tag :=
  let cs := dropFinalBreak spelling.toList
  let s := String.ofList cs
  if boolWords.contains s then bool
  else if isFloat cs then float
  else if isInt cs then int
  else if s = "<<" then merge
  else if nullWords.contains s then null
  else if isTimestamp cs then timestamp
  else if s = "=" then default
  else if ["!", "&", "*"].contains s then unknown
  else text

end Tag

end HomeProvision.Yaml

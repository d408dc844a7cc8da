import HomeProvision.Data.Calendar
import HomeProvision.Number.Shortest
import HomeProvision.Text.CodePoint

/-!
# Values of structured documents

The values that a document of nested data can hold, whether they come from a configuration file or
from a caller that passes fields by name. A mapping keeps its entries in the order in which their
keys first appear.
-/

namespace HomeProvision.Data

open HomeProvision.Text HomeProvision.Number

/-- A value of a document. `again` stands for a collection inside itself, by its brackets. -/
inductive Value where
  | null
  | bool (b : Bool)
  | int (n : Int)
  | float (x : Float)
  /-- Not a number. Two of them are the same key only if they have one source. -/
  | nan (source : Nat)
  | text (s : String)
  /-- A text with halves of surrogate pairs in it. -/
  | illFormed (ps : List CodePoint)
  | bytes (bs : List UInt8)
  | date (d : Date)
  | moment (m : Moment)
  | list (items : List Value)
  | pairs (items : List (Value × Value))
  | mapping (entries : List (Value × Value))
  | set (items : List Value)
  | again (brackets : String)
  deriving Inhabited

namespace Value

/-- The text that code points form, ill-formed where there is a half among them. -/
def ofPoints (ps : List CodePoint) : Value :=
  match CodePoint.text? ps with
  | some s => text s
  | none => illFormed ps

/-- A value with its source, if it is not a number and has none yet. -/
def withSource (source : Nat) : Value → Value
  | float x => if x.isNaN then nan source else float x
  | v => v

/-- The word for a truth value. -/
def boolText (b : Bool) : String :=
  if b then "True" else "False"

mutual

/-- The value as a message shows it: texts in quotes, collections in brackets. -/
def shown : Value → String
  | null => "None"
  | bool b => boolText b
  | int n => toString n
  | float x => floatText x
  | nan _ => "nan"
  | text s => quoted s
  | illFormed ps => quotedPoints ps
  | bytes bs => quotedBytes bs
  | date d => d.shown
  | moment m => m.shown
  | list items => "[" ++ ", ".intercalate (shownItems items) ++ "]"
  | pairs items => "[" ++ ", ".intercalate (shownPairs items) ++ "]"
  | mapping entries => "\x7b" ++ ", ".intercalate (shownEntries entries) ++ "\x7d"
  | set [] => "set()"
  | set items => "\x7b" ++ ", ".intercalate (shownItems items) ++ "\x7d"
  | again brackets => brackets

/-- Each item as a message shows it. -/
def shownItems : List Value → List String
  | [] => []
  | v :: rest => v.shown :: shownItems rest

/-- Each pair as a message shows it. -/
def shownPairs : List (Value × Value) → List String
  | [] => []
  | (a, b) :: rest => ("(" ++ a.shown ++ ", " ++ b.shown ++ ")") :: shownPairs rest

/-- Each entry as a message shows it. -/
def shownEntries : List (Value × Value) → List String
  | [] => []
  | (k, v) :: rest => (k.shown ++ ": " ++ v.shown) :: shownEntries rest

end

/-- The value as text: a text is itself, a date or moment has its international form. -/
def plain : Value → String
  | text s => s
  | illFormed ps => CodePoint.seenText ps
  | date d => d.text
  | moment m => m.text
  | v => v.shown

/-- Whether a value counts as true: everything but null, false, zero and what is empty. -/
def truthy : Value → Bool
  | null => false
  | bool b => b
  | int n => n ≠ 0
  | float x => x != 0
  | text s => s ≠ ""
  | bytes bs => !bs.isEmpty
  | list items => !items.isEmpty
  | pairs items => !items.isEmpty
  | mapping entries => !entries.isEmpty
  | set items => !items.isEmpty
  | nan _ | illFormed _ | date _ | moment _ | again _ => true

/-- The name of a value's type in messages. -/
def typeName : Value → String
  | null => "NoneType"
  | bool _ => "bool"
  | int _ => "int"
  | float _ | nan _ => "float"
  | text _ | illFormed _ => "str"
  | bytes _ => "bytes"
  | date _ => "datetime.date"
  | moment _ => "datetime.datetime"
  | list _ | pairs _ => "list"
  | mapping _ => "dict"
  | set _ => "set"
  | again _ => "list"

/-- A number as a floating-point number, for comparing keys. -/
def asFloat? : Value → Option Float
  | bool b => some (if b then 1 else 0)
  | int n => some (Float.ofInt n)
  | float x => some x
  | nan _ => some (0.0 / 0.0)
  | _ => none

/-- The code points of a text. -/
def points? : Value → Option (List CodePoint)
  | text s => some (CodePoint.ofChars s.toList)
  | illFormed ps => some ps
  | _ => none

/-- Whether two keys are the same: numbers by value, everything else within its type. -/
def sameKey : Value → Value → Bool
  | null, null => true
  | text a, text b => a = b
  | illFormed a, illFormed b => a = b
  | nan a, nan b => a = b
  | bytes a, bytes b => a = b
  | date a, date b => a = b
  | moment a, moment b =>
      a.offset.isSome = b.offset.isSome && a.instant = b.instant
  | a, b =>
      match a.asFloat?, b.asFloat? with
      | some x, some y => x == y
      | _, _ => false

/-- The value under a key. -/
def lookup? {α : Type} (key : Value) : List (Value × α) → Option α
  | [] => none
  | (k, v) :: rest => if sameKey key k then some v else lookup? key rest

/-- Sets the value under a key, at the key's place or at the end. -/
def assign {α : Type} (key : Value) (value : α) : List (Value × α) → List (Value × α)
  | [] => [(key, value)]
  | (k, v) :: rest => if sameKey key k then (k, value) :: rest else (k, v) :: assign key value rest

/-- Why two keys have no order. -/
inductive OrderError where
  | types (left right : String)
  | dateAndMoment
  | offsets
  deriving Repr, DecidableEq

/-- The wording of an error. -/
def OrderError.message : OrderError → String
  | .types left right =>
      "'<' not supported between instances of '" ++ left ++ "' and '" ++ right ++ "'"
  | .dateAndMoment => "can't compare datetime.datetime to datetime.date"
  | .offsets => "can't compare offset-naive and offset-aware datetimes"

/-- The order of keys, which exists within a type and between numbers. -/
def less? : Value → Value → Except OrderError Bool
  | text a, text b => .ok (a < b)
  | bytes a, bytes b => .ok (a < b)
  | date a, date b => .ok (a.ordinal < b.ordinal)
  | moment a, moment b =>
      if a.offset.isSome = b.offset.isSome then .ok (a.instant < b.instant) else .error .offsets
  | date _, moment _ => .error .dateAndMoment
  | moment _, date _ => .error .dateAndMoment
  | a, b =>
      match a.asFloat?, b.asFloat?, a.points?, b.points? with
      | some x, some y, _, _ => .ok (x < y)
      | _, _, some ps, some qs => .ok (ps.map CodePoint.code < qs.map CodePoint.code)
      | _, _, _, _ => .error (.types a.typeName b.typeName)

/-- Puts a key into a list that is sorted from the greatest down. -/
def insertDescending (key : Value) : List Value → Except OrderError (List Value)
  | [] => .ok [key]
  | v :: rest => do
      if ← less? key v then return v :: (← insertDescending key rest)
      else return key :: v :: rest

/-- The keys in ascending order, or the first two that have no order. -/
def sortKeys (keys : List Value) : Except OrderError (List Value) := do
  return (← keys.foldlM (fun sorted key => insertDescending key sorted) []).reverse

end Value

end HomeProvision.Data

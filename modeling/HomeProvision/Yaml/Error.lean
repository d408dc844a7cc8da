import HomeProvision.Data.Calendar
import HomeProvision.Number.Numeral
import HomeProvision.Text.Quoted

/-!
# Why a document is refused

Text that is no document is refused without further detail. Text that is one may still hold a value
that cannot be built, and then the value's own rule gives the reason.
-/

namespace HomeProvision

open HomeProvision.Data HomeProvision.Text

/-- Why the values of a document cannot be built, although its text is well formed. -/
inductive DocumentError where
  | malformed
  | calendar (e : CalendarError)
  /-- A text that is no number, as messages show it. -/
  | badFloat (shown : String)
  | emptyFloat
  /-- A number in base sixty with a place beyond the range of numbers. -/
  | floatOverflow
  /-- A text that is no truth value, as messages show it. -/
  | badBool (shown : String)
  | badTimestamp
  /-- A mapping in place of a timestamp. -/
  | collectedTimestamp
  /-- A mapping in place of a scalar that leads back to itself. -/
  | endlessScalar
  /-- A number in a directive with too many digits. -/
  | longNumber (digits : Nat)
  | codePointTooLarge
  | codePointOverflow
  deriving Repr, DecidableEq

/-- The classes of errors in configurations. -/
inductive ErrorClass where
  /-- Bad input. -/
  | value
  /-- Input that is not UTF-8, which is bad input too. -/
  | encoding
  /-- A value of the wrong type. -/
  | type
  /-- A word that stands for nothing. -/
  | key
  /-- A missing match. -/
  | attribute
  /-- An empty text where a character is needed. -/
  | index
  /-- A number beyond the machine's range. -/
  | overflow
  /-- A search without an end. -/
  | recursion
  deriving Repr, DecidableEq

/-- The class of an error in a document. -/
def DocumentError.errorClass : DocumentError → ErrorClass
  | .malformed | .calendar _ | .badFloat _ | .codePointTooLarge | .longNumber _ => .value
  | .emptyFloat => .index
  | .badBool _ => .key
  | .badTimestamp => .attribute
  | .collectedTimestamp => .type
  | .codePointOverflow | .floatOverflow => .overflow
  | .endlessScalar => .recursion

/-- The wording of an error in a document. -/
def DocumentError.message : DocumentError → String
  | .malformed => "<yaml error>"
  | .calendar e => e.message
  | .badFloat shown => "could not convert string to float: " ++ shown
  | .floatOverflow => "int too large to convert to float"
  | .emptyFloat => "string index out of range"
  | .badBool shown => shown
  | .badTimestamp => "'NoneType' object has no attribute 'groupdict'"
  | .collectedTimestamp => "expected string or bytes-like object, got 'list'"
  | .endlessScalar => "maximum recursion depth exceeded"
  | .longNumber digits =>
      "Exceeds the limit (" ++ toString Number.decimalDigitLimit ++
        " digits) for integer string conversion: value has " ++ toString digits ++
        " digits; use sys.set_int_max_str_digits() to increase the limit"
  | .codePointTooLarge => "chr() arg not in range(0x110000)"
  | .codePointOverflow => "Python int too large to convert to C int"

end HomeProvision

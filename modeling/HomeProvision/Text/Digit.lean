/-!
# Decimal digits of all scripts

Unicode gives the decimal digits of a script ten neighbouring code points, from zero to nine. The
table below therefore holds the zero of each script only.
-/

namespace HomeProvision.Text

/-- The zero digit of each script that writes numbers in base ten, in ascending order. -/
def scriptZeros : List Nat :=
  [
   0x00030, 0x00660, 0x006f0, 0x007c0, 0x00966, 0x009e6, 0x00a66, 0x00ae6,
   0x00b66, 0x00be6, 0x00c66, 0x00ce6, 0x00d66, 0x00de6, 0x00e50, 0x00ed0,
   0x00f20, 0x01040, 0x01090, 0x017e0, 0x01810, 0x01946, 0x019d0, 0x01a80,
   0x01a90, 0x01b50, 0x01bb0, 0x01c40, 0x01c50, 0x0a620, 0x0a8d0, 0x0a900,
   0x0a9d0, 0x0a9f0, 0x0aa50, 0x0abf0, 0x0ff10, 0x104a0, 0x10d30, 0x11066,
   0x110f0, 0x11136, 0x111d0, 0x112f0, 0x11450, 0x114d0, 0x11650, 0x116c0,
   0x11730, 0x118e0, 0x11950, 0x11c50, 0x11d50, 0x11da0, 0x16a60, 0x16ac0,
   0x16b50, 0x1d7ce, 0x1d7d8, 0x1d7e2, 0x1d7ec, 0x1d7f6, 0x1e140, 0x1e2f0,
   0x1e950, 0x1fbf0]

/-- The value of a decimal digit of any script. -/
def digitValue? (c : Char) : Option Nat :=
  if c.toNat < 0x80 then
    if c.isDigit then some (c.toNat - '0'.toNat) else none
  else
    (scriptZeros.find? fun first => first ≤ c.toNat && c.toNat < first + 10).map (c.toNat - ·)

/-- The value of a hexadecimal digit, in either case. -/
def hexValue? (c : Char) : Option Nat :=
  if '0' ≤ c && c ≤ '9' then some (c.toNat - '0'.toNat)
  else if 'a' ≤ c && c ≤ 'f' then some (c.toNat - 'a'.toNat + 10)
  else if 'A' ≤ c && c ≤ 'F' then some (c.toNat - 'A'.toNat + 10)
  else none

/-- The digit for a value below sixteen, in lower case. -/
def hexDigit (n : Nat) : Char :=
  if n < 10 then Char.ofNat ('0'.toNat + n) else Char.ofNat ('a'.toNat + (n - 10))

/-- The lowest `width` hexadecimal digits of a number, most significant first. -/
def hexDigits : (width : Nat) → Nat → List Char
  | 0, _ => []
  | width + 1, n => hexDigits width (n / 16) ++ [hexDigit (n % 16)]

end HomeProvision.Text

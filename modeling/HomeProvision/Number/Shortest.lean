/-!
# The shortest decimal that reads back

A finite binary floating-point number is shown with the fewest significant digits that read back as
the same number, and with the nearest of those decimals. The search works on exact integers: the
number is a quotient, its neighbours give the interval of quotients that round to it, and decimal
grids of growing fineness are tried until a point of one falls into the interval.
-/

namespace HomeProvision.Number

/-- The parts of a 64-bit floating-point number. -/
structure FloatParts where
  negative : Bool
  exponent : Nat
  fraction : Nat
  deriving Repr, DecidableEq

/-- The bit above the 52 bits of the fraction, which the stored form leaves out. -/
def hiddenBit : Nat := 0x10000000000000

/-- Splits the 64 bits of a floating-point number into sign, biased exponent and fraction. -/
def FloatParts.ofBits (bits : UInt64) : FloatParts where
  negative := bits.toNat / 0x8000000000000000 % 2 = 1
  exponent := bits.toNat / hiddenBit % 0x800
  fraction := bits.toNat % hiddenBit

/-- The integer significand. -/
def FloatParts.significand (p : FloatParts) : Nat :=
  if p.exponent = 0 then p.fraction else p.fraction + hiddenBit

/-- The power of two that the significand is multiplied with, raised by 1075. -/
def FloatParts.scale (p : FloatParts) : Nat :=
  max p.exponent 1

/-- Four times the number, as a quotient over `quarterUnit`: the factor leaves room for the points
half way to the neighbours. -/
def FloatParts.quadruple (p : FloatParts) : Nat :=
  4 * p.significand * Nat.pow 2 p.scale

/-- The denominator of `quadruple` and of the interval's ends. -/
def quarterUnit : Nat := 4 * Nat.pow 2 1075

/-- The interval of quotients over `quarterUnit` that round to the number. Below a power of two the
neighbour is half as far away. -/
def FloatParts.interval (p : FloatParts) : Nat × Nat :=
  let below := if p.fraction = 0 && 1 < p.exponent then 1 else 2
  (p.quadruple - below * Nat.pow 2 p.scale, p.quadruple + 2 * Nat.pow 2 p.scale)

/-- Whether a quotient rounds to the number: the ends count when the significand is even. -/
def FloatParts.accepts (p : FloatParts) (num den : Nat) : Bool :=
  let (low, high) := p.interval
  let scaled := num * quarterUnit
  if p.significand % 2 = 0 then low * den ≤ scaled && scaled ≤ high * den
  else low * den < scaled && scaled < high * den

/-- A decimal: `digits · 10 ^ power`. -/
structure Decimal where
  digits : Nat
  power : Int
  deriving Repr, DecidableEq

/-- How many decimal places the quotient needs before its first significant digit, counted from
`places` on, at most `fuel` more. -/
def leadingPlaces (num den : Nat) : (fuel places : Nat) → Nat
  | 0, places => places
  | fuel + 1, places =>
      if den ≤ num * Nat.pow 10 places then places else leadingPlaces num den fuel (places + 1)

/-- The exponent of the first significant digit of a positive quotient. -/
def leadingPower (num den : Nat) : Int :=
  if den ≤ num then ((num / den).repr.length : Int) - 1
  else -(leadingPlaces num den 400 1 : Nat)

/-- The point of the grid with step `10 ^ power` that reads back as the number, if any: the nearer
of the two around it, the even one when both are as near. -/
def FloatParts.onGrid (p : FloatParts) (power : Int) : Option Decimal :=
  let (num, den) :=
    if power < 0 then (p.quadruple * Nat.pow 10 power.natAbs, quarterUnit)
    else (p.quadruple, quarterUnit * Nat.pow 10 power.natAbs)
  let low := num / den
  let rest := num % den
  let accepted (n : Nat) : Bool :=
    if power < 0 then p.accepts n (Nat.pow 10 power.natAbs)
    else p.accepts (n * Nat.pow 10 power.natAbs) 1
  match accepted low, accepted (low + 1) with
  | false, false => none
  | true, false => some ⟨low, power⟩
  | false, true => some ⟨low + 1, power⟩
  | true, true =>
      if 2 * rest < den || (2 * rest = den && low % 2 = 0) then some ⟨low, power⟩
      else some ⟨low + 1, power⟩

/-- The first grid that holds a decimal for the number, from `count` significant digits on. -/
def FloatParts.firstGrid (p : FloatParts) (top : Int) : (fuel count : Nat) → Decimal
  | 0, _ => ⟨p.significand, 0⟩
  | fuel + 1, count =>
      match p.onGrid (top - count + 1) with
      | some d => d
      | none => p.firstGrid top fuel (count + 1)

/-- The shortest decimal for a positive number. Seventeen digits always suffice. -/
def FloatParts.shortest (p : FloatParts) : Decimal :=
  p.firstGrid (leadingPower p.quadruple quarterUnit) 17 1

/-- Removes zeros at the end of a digit string. -/
def dropFinalZeros (ds : List Char) : List Char :=
  (ds.reverse.dropWhile (· = '0')).reverse

/-- The digits of a decimal without zeros at the end, and the place of its point: the value is
`0.d₁d₂… · 10 ^ point`. -/
def Decimal.layout (d : Decimal) : List Char × Int :=
  let ds := (toString d.digits).toList
  (dropFinalZeros ds, ds.length + d.power)

/-- An exponent with its sign and at least two digits. -/
def exponentText (e : Int) : List Char :=
  let ds := (toString e.natAbs).toList
  (if e < 0 then '-' else '+') :: (if ds.length < 2 then '0' :: ds else ds)

/-- Writes digits with their point. Points from four zeros after it up to sixteen digits before it
are written in place, and others by an exponent. -/
def writeDigits (ds : List Char) (point : Int) : List Char :=
  if -4 < point && point ≤ 16 then
    if point ≤ 0 then '0' :: '.' :: List.replicate point.natAbs '0' ++ ds
    else
      let whole := ds.take point.toNat
      let places := ds.drop point.toNat
      whole ++ List.replicate (point.toNat - whole.length) '0' ++ '.' ::
        (if places.isEmpty then ['0'] else places)
  else
    match ds with
    | [] => ['0']
    | d :: rest =>
        (if rest.isEmpty then [d] else d :: '.' :: rest) ++ 'e' :: exponentText (point - 1)

/-- The text of a floating-point number: `nan`, `inf`, or the shortest decimal with its sign. -/
def floatText (f : Float) : String :=
  let p := FloatParts.ofBits f.toBits
  let body :=
    if p.exponent = 2047 then (if p.fraction = 0 then "inf".toList else "nan".toList)
    else if p.significand = 0 then "0.0".toList
    else
      let (ds, point) := p.shortest.layout
      writeDigits ds point
  String.ofList (if p.negative && !(p.exponent = 2047 && p.fraction ≠ 0) then '-' :: body else body)

end HomeProvision.Number

import HomeProvision.Data.Value

/-!
# The order of numbers in a set

A set is shown in the order of a table. Each number has a code, which is its remainder by a prime,
and takes the first free slot of the table on the way that its code prescribes. Other items have no
code that could be told beforehand; a set with such an item keeps the order in which it was written.
-/

namespace HomeProvision.Data.Value

open HomeProvision.Number

/-- The prime by which codes are taken, and in whose field two has order 61. -/
def codePrime : Nat := 0x1fffffffffffffff

/-- The code of infinity. -/
def infinityCode : Nat := 314159

/-- The code of the absolute value of a number: the remainder of a quotient whose denominator is a
power of two. -/
def magnitudeCode (x : Float) : Nat :=
  if x.isInf then infinityCode
  else
    let p := FloatParts.ofBits x.toBits
    let turns := ((p.scale : Int) - 1075) % 61
    p.significand * Nat.pow 2 turns.toNat % codePrime

/-- The code of a number. Minus one is no code, minus two stands for it. -/
def numberCode (x : Float) : Int :=
  if x < 0 then
    let code := -(magnitudeCode x : Int)
    if code = -1 then -2 else code
  else magnitudeCode x

/-- The code of an item, if it is a number. -/
def code? : Value → Option Int
  | bool b => some (if b then 1 else 0)
  | float x => some (numberCode x)
  | _ => none

/-- The number of slots in the table for a number of items. -/
def slotCount (items : Nat) : Nat :=
  if items < 5 then 8 else max 8 (Nat.pow 2 ((2 * items).log2 + 1))

/-- How many slots after the first one are tried before the way jumps. -/
def neighbours (slots slot : Nat) : Nat :=
  if slot + 9 < slots then 9 else 0

/-- The first free slot on the way that starts at `slot`; `shift` is what is left of the code. -/
def freeSlot (slots : Nat) (taken : List Nat) : (fuel : Nat) → (slot shift : Nat) → Nat
  | 0, slot, _ => slot
  | fuel + 1, slot, shift =>
      let near := (List.range (neighbours slots slot + 1)).map (slot + ·)
      match near.find? (!taken.contains ·) with
      | some free => free
      | none =>
          let shift := shift / 32
          freeSlot slots taken fuel ((slot * 5 + 1 + shift) % slots) shift

/-- Puts items with their codes into slots of a table, one after the other. -/
def place (slots : Nat) (table : List (Nat × Value)) : List (Int × Value) → List (Nat × Value)
  | [] => table
  | (code, v) :: rest =>
      let bits := (code % 0x10000000000000000).toNat
      let slot := freeSlot slots (table.map (·.1)) (slots + 13) (bits % slots) bits
      place slots ((slot, v) :: table) rest

/-- The items of a set in the order in which they are shown. -/
def inSetOrder (items : List Value) : List Value :=
  match items.mapM code? with
  | none => items
  | some codes =>
      let slots := slotCount items.length
      let table := place slots [] (codes.zip items)
      (List.range slots).filterMap fun slot => table.lookup slot

end HomeProvision.Data.Value

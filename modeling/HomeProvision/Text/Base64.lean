import HomeProvision.Text.Digit

/-!
# Bytes written with sixty-four characters

Every character of the alphabet carries six bits and four of them make three bytes. Characters
outside the alphabet are passed over, and padding that completes a group of four ends the data.
-/

namespace HomeProvision.Text

/-- The six bits that a character carries. -/
def sextet? (c : Char) : Option Nat :=
  if 'A' ≤ c && c ≤ 'Z' then some (c.toNat - 'A'.toNat)
  else if 'a' ≤ c && c ≤ 'z' then some (c.toNat - 'a'.toNat + 26)
  else if c.isDigit then some (c.toNat - '0'.toNat + 52)
  else if c = '+' then some 62
  else if c = '/' then some 63
  else none

/-- Reads on with the place in the group of four, the bits left over and the padding seen. Nothing
where the data ends inside a group. -/
def base64From : (place left pads : Nat) → List Char → Option (List UInt8)
  | place, _, _, [] => if place = 0 then some [] else none
  | place, left, pads, c :: rest =>
      if c = '=' then
        if 2 ≤ place then
          if 4 ≤ place + (pads + 1) then some [] else base64From place left (pads + 1) rest
        else base64From place left pads rest
      else
        match sextet? c with
        | none => base64From place left pads rest
        | some bits =>
            match place with
            | 0 => base64From 1 bits 0 rest
            | 1 => (base64From 2 (bits % 16) 0 rest).map (UInt8.ofNat (left * 4 + bits / 16) :: ·)
            | 2 => (base64From 3 (bits % 4) 0 rest).map (UInt8.ofNat (left * 16 + bits / 4) :: ·)
            | _ => (base64From 0 0 0 rest).map (UInt8.ofNat (left * 64 + bits) :: ·)

/-- The bytes that a text carries. -/
def base64? (cs : List Char) : Option (List UInt8) :=
  if cs.all (·.toNat < 0x80) then base64From 0 0 0 cs else none

end HomeProvision.Text

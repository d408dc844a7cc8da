/-!
# Permission modes

A mode that has been checked is a number of at most twelve bits.
-/

namespace HomeProvision

/-- The greatest permission mode: read, write and execute for three classes, and three more bits. -/
def modeLimit : Nat := 0o7777

/-- A permission mode. -/
structure Mode where
  bits : Nat
  bits_le : bits ≤ modeLimit := by decide
  deriving Repr, DecidableEq

namespace Mode

/-- The mode with the given bits, if it is in range. -/
def ofInt? (n : Int) : Option Mode :=
  if h : 0 ≤ n ∧ n.toNat ≤ modeLimit then some ⟨n.toNat, h.2⟩ else none

/-- The mode as a number. -/
def toInt (m : Mode) : Int := m.bits

/-- The mode of a new home directory unless another one is asked for. -/
def home : Mode := { bits := 0o700 }

/-- The mode of new directories above a home unless another one is asked for. -/
def intermediate : Mode := { bits := 0o711 }

end Mode

end HomeProvision

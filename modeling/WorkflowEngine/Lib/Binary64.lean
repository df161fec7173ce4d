import Mathlib.Algebra.Ring.Nat

/-!
# Double precision numbers

A non-negative finite number in double precision is `mantissa * 2 ^ exponent` with a
mantissa of 53 bits.  `Binary64.ofRatio` is the one nearest to a quotient, with
ties to even; the range of the exponent is not bounded here.
-/

/-- A non-negative number in double precision. -/
structure Binary64 where
  mantissa : Nat
  exponent : Int
  deriving DecidableEq, Repr

namespace Binary64

/-- The integer nearest to `n / d`; of two the even one. -/
def roundQuotient (n d : Nat) : Nat :=
  if 2 * (n % d) < d ∨ (2 * (n % d) = d ∧ n / d % 2 = 0) then n / d else n / d + 1

/-- `n / d` in units of `2 ^ e`, as a quotient. -/
def scaled (n d : Nat) (e : Int) : Nat × Nat := (n * 2 ^ (-e).toNat, d * 2 ^ e.toNat)

/-- The exponent with which `n / d` has 53 bits. -/
def exponentOf (n d : Nat) : Int :=
  let e : Int := (Nat.log2 n : Int) - Nat.log2 d - 52
  let (a, b) := scaled n d e
  if a / b < 2 ^ 52 then e - 1 else e

/-- The number nearest to `n / d`. -/
def ofRatio (n d : Nat) : Binary64 :=
  let e := exponentOf n d
  let (a, b) := scaled n d e
  ⟨roundQuotient a b, e⟩

/-- The number as a quotient. -/
def ratio (x : Binary64) : Nat × Nat :=
  (x.mantissa * 2 ^ x.exponent.toNat, 2 ^ (-x.exponent).toNat)

/-- `x * k` for an integer that is a double precision number itself. -/
def mulNat (x : Binary64) (k : Nat) : Binary64 := ofRatio (x.ratio.1 * k) x.ratio.2

/-- `int(x)`. -/
def trunc (x : Binary64) : Nat := x.ratio.1 / x.ratio.2

end Binary64

import Mathlib.Algebra.Ring.Nat

/-!
# Base64 with the URL-safe alphabet

`encode` is `base64.urlsafe_b64encode` and `decode` is
`base64.urlsafe_b64decode`.  The decoder is lenient as Python's is: it also
knows `+` and `/`, it drops every other character that is not in the alphabet,
and it stops at a padding that completes a quad.
-/

namespace Base64

/-- The digit with this value. -/
def digit (n : Nat) : Char :=
  if n < 26 then Char.ofNat ('A'.toNat + n)
  else if n < 52 then Char.ofNat ('a'.toNat + (n - 26))
  else if n < 62 then Char.ofNat ('0'.toNat + (n - 52))
  else if n = 62 then '-' else '_'

/-- The value of a digit. -/
def value? (c : Char) : Option Nat :=
  if 'A' ≤ c ∧ c ≤ 'Z' then some (c.toNat - 'A'.toNat)
  else if 'a' ≤ c ∧ c ≤ 'z' then some (c.toNat - 'a'.toNat + 26)
  else if '0' ≤ c ∧ c ≤ '9' then some (c.toNat - '0'.toNat + 52)
  else if c = '-' ∨ c = '+' then some 62
  else if c = '_' ∨ c = '/' then some 63
  else none

/-- `base64.urlsafe_b64encode(data)`. -/
def encode : List UInt8 → List Char
  | [] => []
  | [a] => [digit (a.toNat / 4), digit (a.toNat % 4 * 16), '=', '=']
  | [a, b] =>
    [digit (a.toNat / 4), digit (a.toNat % 4 * 16 + b.toNat / 16), digit (b.toNat % 16 * 4), '=']
  | a :: b :: c :: rest =>
    digit (a.toNat / 4) :: digit (a.toNat % 4 * 16 + b.toNat / 16) ::
      digit (b.toNat % 16 * 4 + c.toNat / 64) :: digit (c.toNat % 64) :: encode rest

/-- The loop of `binascii.a2b_base64`: the position in the quad, the bits that
are left of the digit before, and the number of paddings. -/
def decodeFrom (quadPos left pads : Nat) : List Char → Option (List UInt8)
  | [] => if quadPos = 0 then some [] else none
  | c :: cs =>
    if c = '=' then
      if quadPos < 2 then decodeFrom quadPos left pads cs
      else if 4 ≤ quadPos + (pads + 1) then some []
      else decodeFrom quadPos left (pads + 1) cs
    else match value? c with
      | none => decodeFrom quadPos left pads cs
      | some v =>
        match quadPos with
        | 0 => decodeFrom 1 v 0 cs
        | 1 => (decodeFrom 2 (v % 16) 0 cs).map (UInt8.ofNat (left * 4 + v / 16) :: ·)
        | 2 => (decodeFrom 3 (v % 4) 0 cs).map (UInt8.ofNat (left * 16 + v / 4) :: ·)
        | _ => (decodeFrom 0 0 0 cs).map (UInt8.ofNat (left * 64 + v) :: ·)

/-- `base64.urlsafe_b64decode(data)`; `none` is the error of a wrong length. -/
def decode (cs : List Char) : Option (List UInt8) := decodeFrom 0 0 0 cs

/-! ## Decoding what was encoded -/

theorem value?_digit {n : Nat} (h : n < 64) : digit n ≠ '=' ∧ value? (digit n) = some n := by
  have hall : ∀ m : Fin 64, digit m ≠ '=' ∧ value? (digit m) = some m.val := by decide
  exact hall ⟨n, h⟩

section

variable {left pads n : Nat} {cs : List Char}

theorem decodeFrom_zero (h : n < 64) :
    decodeFrom 0 left pads (digit n :: cs) = decodeFrom 1 n 0 cs := by
  simp [decodeFrom, value?_digit h]

theorem decodeFrom_one (h : n < 64) : decodeFrom 1 left pads (digit n :: cs) =
    (decodeFrom 2 (n % 16) 0 cs).map (UInt8.ofNat (left * 4 + n / 16) :: ·) := by
  simp [decodeFrom, value?_digit h]

theorem decodeFrom_two (h : n < 64) : decodeFrom 2 left pads (digit n :: cs) =
    (decodeFrom 3 (n % 4) 0 cs).map (UInt8.ofNat (left * 16 + n / 4) :: ·) := by
  simp [decodeFrom, value?_digit h]

theorem decodeFrom_three (h : n < 64) : decodeFrom 3 left pads (digit n :: cs) =
    (decodeFrom 0 0 0 cs).map (UInt8.ofNat (left * 64 + n) :: ·) := by
  simp [decodeFrom, value?_digit h]

end

theorem ofNat_of_eq {a : UInt8} {n : Nat} (h : n = a.toNat) : UInt8.ofNat n = a := by
  rw [h, UInt8.ofNat_toNat]

/-- Decoding undoes encoding. -/
theorem decode_encode (bytes : List UInt8) : decode (encode bytes) = some bytes := by
  unfold decode
  induction bytes using encode.induct with
  | case1 => rfl
  | case2 a =>
    have ha := a.toNat_lt
    rw [encode, decodeFrom_zero (by omega), decodeFrom_one (by omega)]
    have hbyte : UInt8.ofNat (a.toNat / 4 * 4 + a.toNat % 4 * 16 / 16) = a := ofNat_of_eq (by omega)
    rw [hbyte]
    rfl
  | case3 a b =>
    have ha := a.toNat_lt
    have hb := b.toNat_lt
    rw [encode, decodeFrom_zero (by omega), decodeFrom_one (by omega), decodeFrom_two (by omega)]
    have hfirst : UInt8.ofNat (a.toNat / 4 * 4 + (a.toNat % 4 * 16 + b.toNat / 16) / 16) = a :=
      ofNat_of_eq (by omega)
    have hsecond : UInt8.ofNat ((a.toNat % 4 * 16 + b.toNat / 16) % 16 * 16 +
        b.toNat % 16 * 4 / 4) = b := ofNat_of_eq (by omega)
    rw [hfirst, hsecond]
    rfl
  | case4 a b c rest ih =>
    have ha := a.toNat_lt
    have hb := b.toNat_lt
    have hc := c.toNat_lt
    rw [encode, decodeFrom_zero (by omega), decodeFrom_one (by omega), decodeFrom_two (by omega),
      decodeFrom_three (by omega), ih]
    have hfirst : UInt8.ofNat (a.toNat / 4 * 4 + (a.toNat % 4 * 16 + b.toNat / 16) / 16) = a :=
      ofNat_of_eq (by omega)
    have hsecond : UInt8.ofNat ((a.toNat % 4 * 16 + b.toNat / 16) % 16 * 16 +
        (b.toNat % 16 * 4 + c.toNat / 64) / 4) = b := ofNat_of_eq (by omega)
    have hthird : UInt8.ofNat ((b.toNat % 16 * 4 + c.toNat / 64) % 4 * 64 + c.toNat % 64) = c :=
      ofNat_of_eq (by omega)
    rw [hfirst, hsecond, hthird]
    rfl

/-- Only nothing is encoded as nothing. -/
theorem encode_ne_nil {bytes : List UInt8} (h : bytes ≠ []) : encode bytes ≠ [] := by
  intro hnil
  have hdecode := decode_encode bytes
  rw [hnil] at hdecode
  exact h (Option.some.inj hdecode).symm

end Base64

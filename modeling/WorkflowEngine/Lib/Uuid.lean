import Mathlib.Algebra.Ring.Nat

/-!
# UUIDs and their text

A UUID is a number, and its text is 32 hexadecimal digits in groups of 8, 4,
4, 4 and 12.  `parse` follows `uuid.UUID(text)`: it drops `urn:`, `uuid:`, the
braces around the text and all hyphens, and then wants 32 characters that
`int(hex, 16)` reads as a number.
-/

/-- A UUID. -/
abbrev Uuid := Nat

namespace Uuid

/-- The digits of the text form, most significant first. -/
def hexDigits (id : Uuid) : List Char :=
  (List.range 32).map (fun i => Nat.digitChar (id / 16 ^ (31 - i) % 16))

/-- `str(id)`. -/
def toText (id : Uuid) : String :=
  let digits := hexDigits id
  String.ofList (digits.take 8 ++ '-' :: ((digits.drop 8).take 4 ++ '-' ::
    ((digits.drop 12).take 4 ++ '-' :: ((digits.drop 16).take 4 ++ '-' :: digits.drop 20))))

/-- `text.replace(part, '')`. -/
def removeAll (part : List Char) : Nat → List Char → List Char
  | 0, cs => cs
  | _ + 1, [] => []
  | fuel + 1, c :: cs =>
    if part.isPrefixOf (c :: cs) then removeAll part fuel ((c :: cs).drop part.length)
    else c :: removeAll part fuel cs

/-- The value of a hexadecimal digit. -/
def hexValue? (c : Char) : Option Nat :=
  if '0' ≤ c ∧ c ≤ '9' then some (c.toNat - '0'.toNat)
  else if 'a' ≤ c ∧ c ≤ 'f' then some (c.toNat - 'a'.toNat + 10)
  else if 'A' ≤ c ∧ c ≤ 'F' then some (c.toNat - 'A'.toNat + 10)
  else none

/-! ## Integer literals -/

/-- The characters for zero of the scripts that have decimal digits. -/
def decimalZeros : List Nat :=
  [0x660, 0x6f0, 0x7c0, 0x966, 0x9e6, 0xa66, 0xae6, 0xb66, 0xbe6, 0xc66, 0xce6, 0xd66, 0xde6, 0xe50,
    0xed0, 0xf20, 0x1040, 0x1090, 0x17e0, 0x1810, 0x1946, 0x19d0, 0x1a80, 0x1a90, 0x1b50, 0x1bb0,
    0x1c40, 0x1c50, 0xa620, 0xa8d0, 0xa900, 0xa9d0, 0xa9f0, 0xaa50, 0xabf0, 0xff10, 0x104a0,
    0x10d30, 0x11066, 0x110f0, 0x11136, 0x111d0, 0x112f0, 0x11450, 0x114d0, 0x11650, 0x116c0,
    0x11730, 0x118e0, 0x11950, 0x11c50, 0x11d50, 0x11da0, 0x11f50, 0x16a60, 0x16ac0, 0x16b50,
    0x1d7ce, 0x1d7d8, 0x1d7e2, 0x1d7ec, 0x1d7f6, 0x1e140, 0x1e2f0, 0x1e4f0, 0x1e950, 0x1fbf0]

/-- The blanks that are not ASCII. -/
def wideBlanks : List Nat :=
  [0x85, 0xa0, 0x1680, 0x2000, 0x2001, 0x2002, 0x2003, 0x2004, 0x2005, 0x2006, 0x2007, 0x2008,
    0x2009, 0x200a, 0x2028, 0x2029, 0x202f, 0x205f, 0x3000]

/-- The character that `int` takes instead: a blank or a digit of ASCII, and `?` for any other
one that is not ASCII. -/
def asciiOf (c : Char) : Char :=
  if c.toNat < 127 then c
  else if c.toNat ∈ wideBlanks then ' '
  else
    match decimalZeros.find? (fun first => first ≤ c.toNat && c.toNat < first + 10) with
    | some first => Nat.digitChar (c.toNat - first)
    | none => '?'

/-- The blanks of ASCII. -/
def isBlank (c : Char) : Bool := c.toNat ∈ [9, 10, 11, 12, 13, 32]

/-- The number so far and the digits after it, with a single underscore before a digit. -/
def digitsFrom? : Nat → List Char → Option Nat
  | value, [] => some value
  | value, '_' :: c :: cs => do digitsFrom? (value * 16 + (← hexValue? c)) cs
  | value, c :: cs => do digitsFrom? (value * 16 + (← hexValue? c)) cs

/-- A number in hexadecimal digits. -/
def digits? : List Char → Option Nat
  | [] => none
  | c :: cs => do digitsFrom? (← hexValue? c) cs

/-- A number that `0x` may stand before. -/
def unsigned? : List Char → Option Nat
  | '0' :: 'x' :: '_' :: cs => digits? cs
  | '0' :: 'X' :: '_' :: cs => digits? cs
  | '0' :: 'x' :: cs => digits? cs
  | '0' :: 'X' :: cs => digits? cs
  | cs => digits? cs

/-- `int(text, 16)` of a text without a minus sign; `none` is a `ValueError`. -/
def natOfHex? (cs : List Char) : Option Nat :=
  match (((cs.map asciiOf).dropWhile isBlank).reverse.dropWhile isBlank).reverse with
  | '+' :: cs => unsigned? cs
  | cs => unsigned? cs

/-! ## UUIDs -/

/-- The characters that `uuid.UUID(text)` hands to `int`. -/
def hexOf (text : String) : List Char :=
  let cs := text.toList
  let cs := removeAll "uuid:".toList cs.length (removeAll "urn:".toList cs.length cs)
  let brace (c : Char) : Bool := c == '\x7b' || c == '\x7d'
  ((cs.dropWhile brace).reverse.dropWhile brace).reverse.filter (· != '-')

/-- `uuid.UUID(text)`; `none` is the `ValueError` of a text that is not one. -/
def parse (text : String) : Option Uuid :=
  if (hexOf text).length = 32 then natOfHex? (hexOf text) else none

/-- The text of that error. -/
def refusal (text : String) : String :=
  if (hexOf text).length = 32 then
    "invalid literal for int() with base 16: '" ++ String.ofList (hexOf text) ++ "'"
  else "badly formed hexadecimal UUID string"

-- a blank, a prefix, an underscore and a digit of another script
example : parse " 0x_000000000000000000000000_1١ " = some 17 := by decide

/-! ## Parsing the text form -/

/-- The value of a digit of the text form. -/
theorem hexValue?_digitChar {n : Nat} (h : n < 16) : hexValue? (Nat.digitChar n) = some n := by
  have hall : ∀ m : Fin 16, hexValue? (Nat.digitChar m) = some m.val := by decide
  exact hall ⟨n, h⟩

/-- The characters that a digit is not. -/
theorem digitChar_ne {n : Nat} (h : n < 16) :
    Nat.digitChar n ∉ ['u', '\x7b', '\x7d', '-', '_', 'x', 'X', '+'] ∧
      asciiOf (Nat.digitChar n) = Nat.digitChar n ∧ isBlank (Nat.digitChar n) = false := by
  have hall : ∀ m : Fin 16, Nat.digitChar m ∉ ['u', '\x7b', '\x7d', '-', '_', 'x', 'X', '+'] ∧
      asciiOf (Nat.digitChar m) = Nat.digitChar m ∧ isBlank (Nat.digitChar m) = false := by decide
  exact hall ⟨n, h⟩

theorem mem_hexDigits {id : Uuid} {c : Char} (h : c ∈ hexDigits id) :
    c ∉ ['u', '\x7b', '\x7d', '-', '_', 'x', 'X', '+'] ∧ asciiOf c = c ∧ isBlank c = false := by
  rcases List.mem_map.mp h with ⟨i, -, rfl⟩
  exact digitChar_ne (Nat.mod_lt _ (by decide))

/-- The number that plain digits denote. -/
def hexNumber? (cs : List Char) : Option Nat :=
  cs.foldl (fun acc c => do return (← acc) * 16 + (← hexValue? c)) (some 0)

/-- Without underscores the digits are read one by one. -/
theorem digitsFrom?_eq (value : Nat) {cs : List Char} (hcs : '_' ∉ cs) :
    digitsFrom? value cs =
      cs.foldl (fun acc c => do return (← acc) * 16 + (← hexValue? c)) (some value) := by
  induction cs generalizing value with
  | nil => rfl
  | cons c cs ih =>
    have hc : c ≠ '_' := fun heq => hcs (heq ▸ List.mem_cons_self)
    have hrest : '_' ∉ cs := fun hmem => hcs (List.mem_cons_of_mem _ hmem)
    have hstep : digitsFrom? value (c :: cs) =
        (do digitsFrom? (value * 16 + (← hexValue? c)) cs) := by
      rw [digitsFrom?]
      exact fun _ _ heq _ => hc heq
    rw [hstep, List.foldl_cons]
    cases hexValue? c with
    | none =>
      have hnone : ∀ l : List Char, l.foldl
          (fun acc c => do return (← acc) * 16 + (← hexValue? c)) (none : Option Nat) = none := by
        intro l
        induction l with
        | nil => rfl
        | cons d l ih => exact ih
      exact (hnone cs).symm
    | some digit => exact ih (value * 16 + digit) hrest

theorem digits?_eq {cs : List Char} (hne : cs ≠ []) (hcs : '_' ∉ cs) :
    digits? cs = hexNumber? cs := by
  rw [hexNumber?, ← digitsFrom?_eq 0 hcs]
  cases cs with
  | nil => exact absurd rfl hne
  | cons c cs =>
    have hc : c ≠ '_' := fun heq => hcs (heq ▸ List.mem_cons_self)
    have hstep : digitsFrom? 0 (c :: cs) = (do digitsFrom? (0 * 16 + (← hexValue? c)) cs) := by
      rw [digitsFrom?]
      exact fun _ _ heq _ => hc heq
    rw [hstep, digits?]
    simp only [Nat.zero_mul, Nat.zero_add]

/-- Nor is there a blank, a sign or a prefix to be dropped. -/
theorem natOfHex?_eq {cs : List Char} (hne : cs ≠ []) (hcs : ∀ c ∈ cs,
      c ∉ ['_', 'x', 'X', '+'] ∧ asciiOf c = c ∧ isBlank c = false) :
    natOfHex? cs = hexNumber? cs := by
  have hnot : ∀ c ∈ ['_', 'x', 'X', '+'], c ∉ cs := fun c hc hmem => (hcs c hmem).1 hc
  have hmap : cs.map asciiOf = cs :=
    List.map_congr_left (fun c hc => (hcs c hc).2.1) |>.trans (List.map_id' cs)
  have hblank : ∀ l : List Char, (∀ c ∈ l, c ∈ cs) → l.dropWhile isBlank = l := by
    intro l hl
    cases l with
    | nil => rfl
    | cons c l => rw [List.dropWhile_cons, if_neg (by simp [(hcs c (hl c List.mem_cons_self)).2.2])]
  rw [natOfHex?, hmap, hblank cs fun _ hc => hc,
    hblank cs.reverse fun _ hc => List.mem_reverse.mp hc, List.reverse_reverse]
  have hunsigned : unsigned? cs = hexNumber? cs := by
    unfold unsigned?
    split
    · exact absurd (by simp) (hnot 'x' (by decide))
    · exact absurd (by simp) (hnot 'X' (by decide))
    · exact absurd (by simp) (hnot 'x' (by decide))
    · exact absurd (by simp) (hnot 'X' (by decide))
    · exact digits?_eq hne (hnot '_' (by decide))
  split
  · exact absurd List.mem_cons_self (hnot '+' (by decide))
  · exact hunsigned

/-- The number that the last `n` digits denote. -/
theorem hexNumber?_digits (n x : Nat) :
    hexNumber? ((List.range n).map (fun i => Nat.digitChar (x / 16 ^ (n - 1 - i) % 16))) =
      some (x % 16 ^ n) := by
  induction n generalizing x with
  | zero => simp [hexNumber?, Nat.mod_one]
  | succ n ih =>
    have hinit : (List.range n).map (fun i => Nat.digitChar (x / 16 ^ (n + 1 - 1 - i) % 16)) =
        (List.range n).map (fun i => Nat.digitChar (x / 16 / 16 ^ (n - 1 - i) % 16)) := by
      apply List.map_congr_left
      intro i hi
      have hlt : i < n := List.mem_range.mp hi
      have hpow : n + 1 - 1 - i = (n - 1 - i) + 1 := by omega
      rw [hpow, Nat.pow_succ', Nat.div_div_eq_div_mul]
    have hlast : hexValue? (Nat.digitChar (x / 16 ^ (n + 1 - 1 - n) % 16)) = some (x % 16) := by
      have hpow : n + 1 - 1 - n = 0 := by omega
      rw [hpow, Nat.pow_zero, Nat.div_one]
      exact hexValue?_digitChar (Nat.mod_lt _ (by decide))
    have hfold := ih (x / 16)
    unfold hexNumber? at hfold ⊢
    rw [List.range_succ, List.map_append, hinit, List.foldl_append, hfold]
    have hsum : x / 16 % 16 ^ n * 16 + x % 16 = x % 16 ^ (n + 1) := by
      rw [Nat.pow_succ', Nat.mod_mul]
      omega
    simp only [List.map_cons, List.map_nil, List.foldl_cons, List.foldl_nil, hlast]
    show some (x / 16 % 16 ^ n * 16 + x % 16) = _
    rw [hsum]

/-- Nothing is removed that does not begin with a character of the text. -/
theorem removeAll_of_not_mem {c : Char} {part : List Char} :
    ∀ (fuel : Nat) (cs : List Char), c ∉ cs → removeAll (c :: part) fuel cs = cs
  | 0, cs, _ => rfl
  | _ + 1, [], _ => rfl
  | fuel + 1, d :: cs, h => by
    have hne : c ≠ d := fun heq => h (heq ▸ List.mem_cons_self)
    have hrest : removeAll (c :: part) fuel cs = cs :=
      removeAll_of_not_mem fuel cs (fun hmem => h (List.mem_cons_of_mem _ hmem))
    simp [removeAll, List.isPrefixOf, hne, hrest]

theorem toList_toText (id : Uuid) : (toText id).toList =
    (hexDigits id).take 8 ++ '-' :: (((hexDigits id).drop 8).take 4 ++ '-' ::
      (((hexDigits id).drop 12).take 4 ++ '-' :: (((hexDigits id).drop 16).take 4 ++ '-' ::
        (hexDigits id).drop 20))) := by
  simp [toText]

/-- The characters of a text form. -/
theorem mem_toText {id : Uuid} {c : Char} (h : c ∈ (toText id).toList) :
    c = '-' ∨ c ∈ hexDigits id := by
  rw [toList_toText] at h
  simp only [List.mem_append, List.mem_cons] at h
  rcases h with h | h | h | h | h | h | h | h | h
  · exact .inr (List.mem_of_mem_take h)
  · exact .inl h
  · exact .inr (List.mem_of_mem_drop (List.mem_of_mem_take h))
  · exact .inl h
  · exact .inr (List.mem_of_mem_drop (List.mem_of_mem_take h))
  · exact .inl h
  · exact .inr (List.mem_of_mem_drop (List.mem_of_mem_take h))
  · exact .inl h
  · exact .inr (List.mem_of_mem_drop h)

/-- Without its hyphens a text form is the digits. -/
theorem filter_toText (id : Uuid) : (toText id).toList.filter (· != '-') = hexDigits id := by
  have hdigits : ∀ cs : List Char, cs ⊆ hexDigits id → cs.filter (· != '-') = cs := by
    intro cs hcs
    apply List.filter_eq_self.mpr
    intro c hc
    have hne := mem_hexDigits (hcs hc)
    have hhyphen : c ≠ '-' := by
      rintro rfl
      exact hne.1 (by decide)
    simp [hhyphen]
  have htake : ∀ n m, ((hexDigits id).drop n).take m ⊆ hexDigits id :=
    fun n m c hc => List.mem_of_mem_drop (List.mem_of_mem_take hc)
  rw [toList_toText]
  simp only [List.filter_append, List.filter_cons]
  rw [hdigits _ (List.take_subset 8 _), hdigits _ (htake 8 4), hdigits _ (htake 12 4),
    hdigits _ (htake 16 4), hdigits _ (List.drop_subset 20 _)]
  simp only [bne_self_eq_false, Bool.false_eq_true, if_false]
  have hsplit : ∀ n m, ((hexDigits id).drop n).take m ++ (hexDigits id).drop (n + m) =
      (hexDigits id).drop n := by
    intro n m
    rw [← List.drop_drop, List.take_append_drop]
  rw [hsplit 16 4, hsplit 12 4, hsplit 8 4, List.take_append_drop]

/-- Nothing but the hyphens is dropped from the text form. -/
theorem hexOf_toText (id : Uuid) : hexOf (toText id) = hexDigits id := by
  have hchars : ∀ c ∈ (toText id).toList, c ∉ ['u', '\x7b', '\x7d'] := by
    intro c hc
    rcases mem_toText hc with rfl | hdigit
    · decide
    · have hne := (mem_hexDigits hdigit).1
      simp only [List.mem_cons, not_or] at hne ⊢
      exact ⟨hne.1, hne.2.1, hne.2.2.1, List.not_mem_nil⟩
  have hu : 'u' ∉ (toText id).toList := fun hmem => hchars 'u' hmem (by decide)
  have hbraces : ∀ cs : List Char, (∀ c ∈ cs, c ∈ (toText id).toList) →
      cs.dropWhile (fun c => c == '\x7b' || c == '\x7d') = cs := by
    intro cs hcs
    cases cs with
    | nil => rfl
    | cons c cs =>
      have hne := hchars c (hcs c List.mem_cons_self)
      simp only [List.mem_cons, not_or] at hne
      have hfalse : (c == '\x7b' || c == '\x7d') = false := by simp [hne.2.1, hne.2.2.1]
      simp only [List.dropWhile, hfalse]
  unfold hexOf
  simp only
  rw [show "urn:".toList = 'u' :: "rn:".toList from rfl,
    show "uuid:".toList = 'u' :: "uid:".toList from rfl, removeAll_of_not_mem _ _ hu,
    removeAll_of_not_mem _ _ hu, hbraces _ (fun _ hc => hc),
    hbraces _ (fun _ hc => List.mem_reverse.mp hc), List.reverse_reverse, filter_toText]

/-- A UUID of 128 bits can be read back from its text. -/
theorem parse_toText {id : Uuid} (h : id < 16 ^ 32) : parse (toText id) = some id := by
  have hlength : (hexDigits id).length = 32 := by simp [hexDigits]
  have hne : hexDigits id ≠ [] := by
    intro hnil
    rw [hnil] at hlength
    cases hlength
  have hread : natOfHex? (hexDigits id) = hexNumber? (hexDigits id) := by
    refine natOfHex?_eq hne fun c hc => ?_
    obtain ⟨hnot, hplain⟩ := mem_hexDigits hc
    refine ⟨fun hmem => hnot ?_, hplain⟩
    exact List.mem_append_right ['u', '\x7b', '\x7d', '-'] hmem
  have hdigits := hexNumber?_digits 32 id
  rw [Nat.mod_eq_of_lt h] at hdigits
  rw [parse, hexOf_toText, if_pos hlength, hread]
  exact hdigits

/-- The empty text is not a UUID. -/
theorem parse_empty : parse "" = none ∧ refusal "" = "badly formed hexadecimal UUID string" := by
  decide

/-- No UUID has an empty text. -/
theorem toText_ne_empty (id : Uuid) : toText id ≠ "" := by
  intro h
  have hlist := congrArg String.toList h
  simp [toText] at hlist

end Uuid

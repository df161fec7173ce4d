import Mathlib.Algebra.Ring.Int.Defs
import Mathlib.Algebra.Ring.Nat
import WorkflowEngine.Lib.Binary64
import WorkflowEngine.Lib.Dict

/-!
# JSON values as Python sees them

`Json` is the type of the values that `json.loads` builds: `None`, booleans,
integers, floats, strings, lists and dictionaries with string keys.  A float
is kept as the shortest decimal `m / 10 ^ (e + 1)` that is rounded to it.

The operations follow Python's own rules: `truthy` is truth testing, `eq` is
`==` (where `True == 1 == 1.0` and the order of the keys of a dictionary does
not matter), `str` is `str(value)`, and `setMembers` is `set(value)`.
-/

namespace Py

/-- A value of `json.loads`. -/
inductive Json where
  | null
  | bool (b : Bool)
  | int (n : Int)
  | float (m : Int) (e : Nat)
  | str (s : String)
  | arr (items : List Json)
  | obj (fields : List (String × Json))

namespace Json

instance : Inhabited Json := ⟨.null⟩

/-- `bool(value)`: every empty or zero value is false. -/
def truthy : Json → Bool
  | null => false
  | bool b => b
  | int n => n != 0
  | float m _ => m != 0
  | str s => s != ""
  | arr items => !items.isEmpty
  | obj fields => !fields.isEmpty

/-- `type(value).__name__`. -/
def typeName : Json → String
  | null => "NoneType"
  | bool _ => "bool"
  | int _ => "int"
  | float _ _ => "float"
  | str _ => "str"
  | arr _ => "list"
  | obj _ => "dict"

/-- The number that a value stands for in an arithmetic comparison, as a
mantissa and a count of decimal places.  A boolean is an integer in Python. -/
def number : Json → Option (Int × Nat)
  | bool b => some (if b then 1 else 0, 0)
  | int n => some (n, 0)
  | float m e => some (m, e + 1)
  | _ => none

/-- The number itself, as a quotient: a float is one in double precision. -/
def quotient : Json → Option (Int × Nat)
  | bool b => some (if b then 1 else 0, 1)
  | int n => some (n, 1)
  | float m e =>
    let ratio := (Binary64.ofRatio m.natAbs (10 ^ (e + 1))).ratio
    some (m.sign * ratio.1, ratio.2)
  | _ => none

/-- `==` on two values that are neither strings nor containers. -/
def scalarEq (a b : Json) : Bool :=
  match a, b with
  | null, null => true
  | a, b =>
    match a.quotient, b.quotient with
    | some p, some q => p.1 * q.2 == q.1 * p.2
    | _, _ => false

mutual

/-- `a == b`. -/
def eq : Json → Json → Bool
  | arr xs, arr ys => eqItems xs ys
  | obj xs, obj ys => xs.length == ys.length && eqFields xs ys
  | str s, str t => s == t
  | a, b => scalarEq a b

/-- `==` on the items of two lists. -/
def eqItems : List Json → List Json → Bool
  | [], [] => true
  | x :: xs, y :: ys => eq x y && eqItems xs ys
  | _, _ => false

/-- Every field of the first dictionary has an equal field in the second. -/
def eqFields : List (String × Json) → List (String × Json) → Bool
  | [], _ => true
  | (k, x) :: xs, ys =>
    (match Dict.get? ys k with
      | some y => eq x y
      | none => false) && eqFields xs ys

end

/-- The digits of a float.  There is a decimal point in them, or an exponent where the point
would be more than 16 places after the first digit, or more than 3 zeros before it. -/
def floatStr (m : Int) (e : Nat) : String :=
  let digits := (toString m.natAbs).toList
  let kept := (digits.reverse.dropWhile (· == '0')).reverse
  let point : Int := digits.length - (e + 1)
  let zeros (n : Nat) := List.replicate n '0'
  let sign := if m < 0 then "-" else ""
  if m = 0 then "0.0"
  else if -4 < point ∧ point ≤ 0 then
    sign ++ String.ofList ('0' :: '.' :: (zeros (-point).toNat ++ kept))
  else if 0 < point ∧ point ≤ 16 then
    let whole := kept.take point.toNat ++ zeros (point.toNat - kept.length)
    let fraction := kept.drop point.toNat
    sign ++ String.ofList (whole ++ '.' :: if fraction.isEmpty then ['0'] else fraction)
  else
    let exponent := toString (point - 1).natAbs
    sign ++ String.ofList (kept.take 1 ++ if kept.length = 1 then [] else '.' :: kept.drop 1) ++
      (if point ≤ 0 then "e-" else "e+") ++ "".pushn '0' (2 - exponent.length) ++ exponent

mutual

/-- `repr(value)`.  Escape sequences inside a string literal are not spelled
out. -/
def repr : Json → String
  | null => "None"
  | bool true => "True"
  | bool false => "False"
  | int n => toString n
  | float m e => floatStr m e
  | str s => "'" ++ s ++ "'"
  | arr items => "[" ++ reprItems items ++ "]"
  | obj fields => "\x7b" ++ reprFields fields ++ "\x7d"

/-- The items of a list, separated by commas. -/
def reprItems : List Json → String
  | [] => ""
  | [x] => repr x
  | x :: xs => repr x ++ ", " ++ reprItems xs

/-- The items of a dictionary, separated by commas. -/
def reprFields : List (String × Json) → String
  | [] => ""
  | [(k, x)] => "'" ++ k ++ "': " ++ repr x
  | (k, x) :: xs => "'" ++ k ++ "': " ++ repr x ++ ", " ++ reprFields xs

end

/-- `str(value)`: a string is itself, any other value is its `repr`. -/
def pyStr : Json → String
  | str s => s
  | value => repr value

/-- Lists and dictionaries have no hash. -/
def hashable : Json → Bool
  | arr _ => false
  | obj _ => false
  | _ => true

/-- The text of the `TypeError` for the first value without a hash. -/
def unhashableText (values : List Json) : String :=
  "unhashable type: '" ++ ((values.find? (!hashable ·)).map typeName).getD "" ++ "'"

/-- The text of the `TypeError` of a value that cannot be iterated over. -/
def notIterableText (value : Json) : String := "'" ++ value.typeName ++ "' object is not iterable"

/-- `set(value)`: the members that iterating over `value` yields, or the text
of the `TypeError` it raises.  A string yields its characters and a
dictionary its keys; an unhashable member and a value that cannot be iterated
over are refused. -/
def setMembers : Json → Except String (List Json)
  | arr items => if items.all hashable then .ok items else .error (unhashableText items)
  | str s => .ok (s.toList.map (fun c => str (String.singleton c)))
  | obj fields => .ok (fields.map (fun field => str field.1))
  | value => .error (notIterableText value)

/-- The string that a value is, if it is one. -/
def asStr? : Json → Option String
  | str s => some s
  | _ => none

end Json

namespace Json

/-! ## Identity of values -/

mutual

/-- The two values are the same, in the types of their numbers and in the order
of their keys too. -/
def same : Json → Json → Bool
  | null, null => true
  | bool a, bool b => a == b
  | int a, int b => a == b
  | float m e, float n f => m == n && e == f
  | str s, str t => s == t
  | arr xs, arr ys => sameItems xs ys
  | obj xs, obj ys => sameFields xs ys
  | _, _ => false

/-- The same items. -/
def sameItems : List Json → List Json → Bool
  | [], [] => true
  | x :: xs, y :: ys => same x y && sameItems xs ys
  | _, _ => false

/-- The same fields. -/
def sameFields : List (String × Json) → List (String × Json) → Bool
  | [], [] => true
  | (k, x) :: xs, (l, y) :: ys => k == l && same x y && sameFields xs ys
  | _, _ => false

end

mutual

theorem same_iff : ∀ a b : Json, same a b = true ↔ a = b
  | null, b => by cases b <;> simp [same]
  | bool a, b => by cases b <;> simp [same]
  | int a, b => by cases b <;> simp [same]
  | float m e, b => by cases b <;> simp [same]
  | str s, b => by cases b <;> simp [same]
  | arr xs, b => by cases b <;> simp [same, sameItems_iff xs]
  | obj xs, b => by cases b <;> simp [same, sameFields_iff xs]

theorem sameItems_iff : ∀ xs ys : List Json, sameItems xs ys = true ↔ xs = ys
  | [], ys => by cases ys <;> simp [sameItems]
  | x :: xs, [] => by simp [sameItems]
  | x :: xs, y :: ys => by simp [sameItems, same_iff x y, sameItems_iff xs ys]

theorem sameFields_iff : ∀ xs ys : List (String × Json), sameFields xs ys = true ↔ xs = ys
  | [], ys => by cases ys <;> simp [sameFields]
  | _ :: xs, [] => by simp [sameFields]
  | (k, x) :: xs, (l, y) :: ys => by
    simp [sameFields, same_iff x y, sameFields_iff xs ys, and_assoc]

end

instance : DecidableEq Json := fun a b => decidable_of_iff _ (same_iff a b)

/-! ## Equal dictionaries -/

/-- What one dictionary has under a key, a dictionary that is `==` has too. -/
theorem get?_of_eqFields {xs ys : List (String × Json)} (h : eqFields xs ys = true) {k : String}
    {x : Json} (hx : Dict.get? xs k = some x) :
    ∃ y, Dict.get? ys k = some y ∧ eq x y = true := by
  induction xs with
  | nil => cases hx
  | cons field xs ih =>
    obtain ⟨k', x'⟩ := field
    simp only [eqFields, Bool.and_eq_true] at h
    rw [Dict.get?_cons] at hx
    split at hx
    · rename_i hk
      subst hk
      cases hx
      cases hy : Dict.get? ys k' with
      | none =>
        rw [hy] at h
        cases h.1
      | some y =>
        rw [hy] at h
        exact ⟨y, rfl, h.1⟩
    · exact ih h.2 hx

/-- A value that is `==` to a dictionary is one. -/
theorem exists_of_eq_obj {xs : List (String × Json)} {b : Json} (h : eq (.obj xs) b = true) :
    ∃ ys, b = .obj ys ∧ eqFields xs ys = true := by
  cases b with
  | obj ys =>
    rw [eq, Bool.and_eq_true] at h
    exact ⟨ys, rfl, h.2⟩
  | null => simp [eq, scalarEq, quotient] at h
  | bool b => simp [eq, scalarEq, quotient] at h
  | int n => simp [eq, scalarEq, quotient] at h
  | float m e => simp [eq, scalarEq, quotient] at h
  | str s => simp [eq, scalarEq, quotient] at h
  | arr ys => simp [eq, scalarEq, quotient] at h

end Json

/-- ASCII `s.lower()`. -/
def lower (s : String) : String := String.ofList (s.toList.map Char.toLower)

end Py

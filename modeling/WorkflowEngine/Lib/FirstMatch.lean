import Mathlib.Data.List.Infix
import Mathlib.Data.List.Pairwise

/-!
# The first match and the longest prefix

A table of rules is read from the top, and the first rule whose key is a prefix of the text
is taken.  `longest_of_find?` says when this is the rule with the longest such key: no rule
may come before another one that has a longer key with its own key as a prefix.
-/

namespace FirstMatch

section

variable {ρ : Type} {p : ρ → Bool} {rules : List ρ} {rule : ρ}

/-- Each other match comes after the first one. -/
theorem rel_of_find? {R : ρ → ρ → Prop} (hrules : rules.Pairwise R)
    (hfind : rules.find? p = some rule) {other : ρ} (hmem : other ∈ rules)
    (hother : p other = true) : other = rule ∨ R rule other := by
  obtain ⟨-, front, rest, rfl, hfront⟩ := List.find?_eq_some_iff_append.mp hfind
  have hnot : other ∉ front := fun hin => by simpa [hother] using hfront other hin
  rcases List.mem_append.mp hmem with hin | hin
  · exact absurd hin hnot
  · rcases List.mem_cons.mp hin with heq | hlater
    · exact .inl heq
    · exact .inr (List.rel_of_pairwise_cons (List.pairwise_append.mp hrules).2.1 hlater)

end

variable {α ρ : Type} (key : ρ → List α)

/-- The rule has the longest key of all that are prefixes of the text. -/
structure Longest (rules : List ρ) (text : List α) (rule : ρ) : Prop where
  mem : rule ∈ rules
  isMatch : key rule <+: text
  longest : ∀ other ∈ rules, key other <+: text → (key other).length ≤ (key rule).length

/-- The rule takes every text of the other one, whose key is longer. -/
def Shadows (rule other : ρ) : Prop := key rule <+: key other ∧ key rule ≠ key other

variable {key} {rules : List ρ} {text : List α} {rule : ρ}

/-- Of two rules that match a text one shadows the other, or they have the same key. -/
theorem length_le_of_not_shadows {other : ρ} (h : key rule <+: text) (hother : key other <+: text)
    (hnot : ¬ Shadows key rule other) : (key other).length ≤ (key rule).length := by
  rcases List.prefix_or_prefix_of_prefix h hother with hle | hle
  · have heq : key rule = key other := by
      by_contra hne
      exact hnot ⟨hle, hne⟩
    rw [heq]
  · exact hle.length_le

/-- Two longest matches have the same key. -/
theorem Longest.key_eq {other : ρ} (h : Longest key rules text rule)
    (hother : Longest key rules text other) : key rule = key other := by
  have hlength := le_antisymm (hother.longest rule h.mem h.isMatch)
    (h.longest other hother.mem hother.isMatch)
  exact (List.prefix_of_prefix_length_le h.isMatch hother.isMatch hlength.le).eq_of_length hlength

/-- The first match is the longest, unless it shadows a match further down. -/
theorem longest_of_find? {p : ρ → Bool}
    (hp : ∀ rule ∈ rules, p rule = true ↔ key rule <+: text)
    (hrules : rules.Pairwise fun rule other => key other <+: text → ¬ Shadows key rule other)
    (hfind : rules.find? p = some rule) : Longest key rules text rule := by
  have hmem := List.mem_of_find?_eq_some hfind
  have hmatch := (hp rule hmem).mp (List.find?_some hfind)
  refine ⟨hmem, hmatch, fun other hother hmatches => ?_⟩
  rcases rel_of_find? hrules hfind hother ((hp other hother).mpr hmatches) with rfl | hnot
  · exact le_rfl
  · exact length_le_of_not_shadows hmatch hmatches (hnot hmatches)

end FirstMatch

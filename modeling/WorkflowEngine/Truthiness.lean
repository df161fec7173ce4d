import Mathlib.Data.List.TakeWhile
import WorkflowEngine.Orchestrator

/-!
# The two rules for the truth of a result

`_evaluate_truthiness` of the condition executor strips a rendered string before it looks it
up, and `_resolve_condition_branches` of the orchestrator does not.  They disagree on a falsy
word with whitespace around it, and on nothing else: `truthiness_agrees_iff`.

A word is falsy in lower case.  `lower` knows the ASCII letters only, which is enough here:
no other character has a lower case that occurs in a falsy word.
-/

namespace WorkflowEngine

open Py

/-- The text is whitespace, a falsy word in any case or no word, and whitespace, with some
whitespace in it. -/
def PaddedFalsy (text : String) : Prop :=
  ∃ front word back : List Char, text.toList = front ++ word ++ back ∧
    (∀ c ∈ front ++ back, isSpace c = true) ∧ front ++ back ≠ [] ∧
    String.ofList (word.map Char.toLower) ∈ falsyResults

/-! ## Words in lower case -/

/-- Beyond the upper-case letters of ASCII nothing changes. -/
theorem toLower_of_lt {c : Char} (h : c.toNat < 65 ∨ 90 < c.toNat) : c.toLower = c := by
  have hupper : ¬ (c.val ≥ 'A'.val ∧ c.val ≤ 'Z'.val) := by
    rintro ⟨hge, hle⟩
    have hge' : 65 ≤ c.toNat := hge
    have hle' : c.toNat ≤ 90 := hle
    omega
  unfold Char.toLower
  rw [dif_neg hupper]

theorem toLower_of_isSpace {c : Char} (h : isSpace c = true) : c.toLower = c := by
  refine toLower_of_lt ?_
  simp only [isSpace, decide_eq_true_eq, List.mem_cons, List.not_mem_nil, or_false] at h
  omega

/-- A character in lower case is no upper-case letter. -/
theorem toLower_toNat (c : Char) : c.toLower.toNat < 65 ∨ 90 < c.toLower.toNat := by
  have hletters : ∀ n < 26, (Char.ofNat (65 + n)).toLower.toNat = 97 + n := by decide
  by_cases hletter : 65 ≤ c.toNat ∧ c.toNat ≤ 90
  · have hn : 65 + (c.toNat - 65) = c.toNat := by omega
    have hlower := hletters (c.toNat - 65) (by omega)
    rw [hn, Char.ofNat_toNat] at hlower
    omega
  · have hother : c.toNat < 65 ∨ 90 < c.toNat := by omega
    rwa [toLower_of_lt hother]

/-- The other entries of `_FALSY_VALUES` are not in lower case. -/
theorem lower_mem_falsyValues (text : String) :
    lower text ∈ falsyValues ↔ lower text ∈ falsyResults := by
  have hne : ∀ word : String, (∃ c ∈ word.toList, 65 ≤ c.toNat ∧ c.toNat ≤ 90) →
      lower text ≠ word := by
    rintro word ⟨c, hc, hge, hle⟩ rfl
    rw [lower, String.toList_ofList] at hc
    obtain ⟨d, -, rfl⟩ := List.mem_map.mp hc
    rcases toLower_toNat d with hlt | hgt
    · omega
    · omega
  have hfalse : lower text ≠ "False" := hne _ ⟨'F', by decide, by decide, by decide⟩
  have hnone : lower text ≠ "None" := hne _ ⟨'N', by decide, by decide, by decide⟩
  simp only [falsyValues, falsyResults, List.mem_cons, List.not_mem_nil, or_false, hfalse, hnone]
  rw [or_comm, or_assoc, or_assoc]

/-- There is no whitespace in a falsy word. -/
theorem isSpace_of_falsy {word : List Char}
    (h : String.ofList (word.map Char.toLower) ∈ falsyResults) {c : Char} (hc : c ∈ word) :
    isSpace c = false := by
  have hwords : falsyResults.all (fun falsy => falsy.toList.all (!isSpace ·)) = true := rfl
  by_contra hspace
  rw [Bool.not_eq_false] at hspace
  have hmem : c.toLower ∈ (String.ofList (word.map Char.toLower)).toList := by
    rw [String.toList_ofList]
    exact List.mem_map_of_mem hc
  rw [toLower_of_isSpace hspace] at hmem
  have hword := List.all_eq_true.mp (List.all_eq_true.mp hwords _ h) c hmem
  rw [hspace] at hword
  cases hword

/-! ## Stripping -/

/-- `strip` on the characters of a text. -/
def stripped (text : List Char) : List Char :=
  ((text.dropWhile isSpace).reverse.dropWhile isSpace).reverse

theorem strip_eq (text : String) : strip text = String.ofList (stripped text.toList) := rfl

/-- A word without whitespace is what is left of it with whitespace around. -/
theorem stripped_padded {front word back : List Char} (hfront : ∀ c ∈ front, isSpace c = true)
    (hword : ∀ c ∈ word, isSpace c = false) (hback : ∀ c ∈ back, isSpace c = true) :
    stripped (front ++ word ++ back) = word := by
  have hself : ∀ {word : List Char}, (∀ c ∈ word, isSpace c = false) → word ≠ [] →
      ∀ rest, (word ++ rest).dropWhile isSpace = word ++ rest := by
    intro word hword hne rest
    cases word with
    | nil => exact absurd rfl hne
    | cons c word => simp [hword c List.mem_cons_self]
  unfold stripped
  rw [List.append_assoc, List.dropWhile_append_of_pos hfront]
  by_cases hne : word = []
  · subst hne
    rw [List.nil_append, List.dropWhile_eq_nil_iff.mpr hback]
    rfl
  · rw [hself hword hne, List.reverse_append,
      List.dropWhile_append_of_pos fun c hc => hback c (List.mem_reverse.mp hc)]
    have hrest := hself (fun c hc => hword c (List.mem_reverse.mp hc))
      (fun hnil => hne (List.reverse_eq_nil_iff.mp hnil)) []
    rw [List.append_nil] at hrest
    rw [hrest, List.reverse_reverse]

/-- A text is what is left of it, with whitespace around. -/
theorem exists_padding (text : List Char) : ∃ front back : List Char,
    text = front ++ stripped text ++ back ∧ ∀ c ∈ front ++ back, isSpace c = true := by
  refine ⟨text.takeWhile isSpace, ((text.dropWhile isSpace).reverse.takeWhile isSpace).reverse,
    ?_, fun c hc => ?_⟩
  · rw [stripped, List.append_assoc, ← List.reverse_append, List.takeWhile_append_dropWhile,
      List.reverse_reverse, List.takeWhile_append_dropWhile]
  · rcases List.mem_append.mp hc with hfront | hback
    · exact List.mem_takeWhile_imp hfront
    · exact List.mem_takeWhile_imp (List.mem_reverse.mp hback)

/-! ## Where the rules agree -/

/-- The text is falsy for the orchestrator. -/
theorem resultIsTruthy_eq_false (text : String) :
    resultIsTruthy (.str text) = false ↔ lower text ∈ falsyResults := by
  have hempty : text = "" → lower text ∈ falsyResults := by
    rintro rfl
    decide
  have hresult : resultIsTruthy (.str text) = (text != "" && lower text ∉ falsyResults) := rfl
  rw [hresult, Bool.and_eq_false_iff, bne_eq_false_iff_eq, decide_eq_false_iff_not, not_not]
  exact or_iff_right_of_imp hempty

/-- The text is falsy for the executor. -/
theorem evaluateTruthiness_eq_false (text : String) :
    evaluateTruthiness text = false ↔ lower (strip text) ∈ falsyResults := by
  unfold evaluateTruthiness
  split
  · rename_i hempty
    subst hempty
    exact iff_of_true rfl (by decide)
  · rw [decide_eq_false_iff_not, not_not, lower_mem_falsyValues]

/-- The texts that only the executor takes as falsy. -/
theorem paddedFalsy_iff (text : String) :
    PaddedFalsy text ↔ lower (strip text) ∈ falsyResults ∧ lower text ∉ falsyResults := by
  constructor
  · rintro ⟨front, word, back, htext, hspace, hne, hfalsy⟩
    have hword : ∀ c ∈ word, isSpace c = false := fun c hc => isSpace_of_falsy hfalsy hc
    have hstripped : stripped text.toList = word := by
      rw [htext]
      exact stripped_padded (fun c hc => hspace c (List.mem_append_left _ hc)) hword
        fun c hc => hspace c (List.mem_append_right _ hc)
    refine ⟨?_, fun hlower => ?_⟩
    · rw [strip_eq, hstripped, lower, String.toList_ofList]
      exact hfalsy
    · obtain ⟨c, hc⟩ := List.exists_mem_of_ne_nil _ hne
      have hmem : c ∈ text.toList := by
        rw [htext]
        rcases List.mem_append.mp hc with hfront | hback
        · exact List.mem_append_left _ (List.mem_append_left _ hfront)
        · exact List.mem_append_right _ hback
      exact absurd (hspace c hc) (by rw [isSpace_of_falsy hlower hmem]; simp)
  · rintro ⟨hstrip, htext⟩
    obtain ⟨front, back, hpadded, hspace⟩ := exists_padding text.toList
    refine ⟨front, stripped text.toList, back, hpadded, hspace, fun hnil => htext ?_, ?_⟩
    · obtain ⟨rfl, rfl⟩ := List.append_eq_nil_iff.mp hnil
      rw [List.nil_append, List.append_nil] at hpadded
      rwa [strip_eq, ← hpadded, String.ofList_toList] at hstrip
    · rwa [strip_eq, lower, String.toList_ofList] at hstrip

/-- What the orchestrator finds falsy the executor finds falsy too. -/
theorem lower_strip_mem {text : String} (h : lower text ∈ falsyResults) :
    lower (strip text) ∈ falsyResults := by
  have hstripped : stripped ([] ++ text.toList ++ []) = text.toList := stripped_padded (by simp)
    (fun c hc => isSpace_of_falsy h hc) (by simp)
  rw [List.nil_append, List.append_nil] at hstripped
  rwa [strip_eq, hstripped, String.ofList_toList]

/-- The executor and the orchestrator agree on a rendered string, as it is, exactly if it is
not a falsy word with whitespace around it. -/
theorem truthiness_agrees_iff (text : String) :
    evaluateTruthiness text = resultIsTruthy (.str text) ↔ ¬ PaddedFalsy text := by
  rw [paddedFalsy_iff, not_and, not_not, ← evaluateTruthiness_eq_false,
    ← resultIsTruthy_eq_false]
  have hfalsy : resultIsTruthy (.str text) = false → evaluateTruthiness text = false := by
    rw [evaluateTruthiness_eq_false, resultIsTruthy_eq_false]
    exact lower_strip_mem
  constructor
  · exact fun heq hexecutor => heq ▸ hexecutor
  · intro h
    cases hresult : resultIsTruthy (.str text) with
    | false => exact hfalsy hresult
    | true =>
      by_contra hne
      rw [Bool.not_eq_true] at hne
      exact absurd ((h hne).symm.trans hresult) (by simp)

/-- A `false` with a line break after it is not the same to both. -/
theorem not_truthiness_agrees :
    ¬ ∀ text : String, evaluateTruthiness text = resultIsTruthy (.str text) := by
  intro h
  exact absurd (h "false\n") (by decide)

end WorkflowEngine

import WorkflowEngine.Lib.FirstMatch
import WorkflowEngine.RateLimit

/-!
# The most specific limit

`_get_rate_limit` takes the first rule of `ROUTE_LIMITS` that applies, and its comment says
that more specific prefixes come first.  For one pair of rules this is not so: `POST
/api/workflows` comes before `POST /api/workflows/`.  `mostSpecific_iff` says that all other
requests get the limit of the most specific rule.
-/

namespace WorkflowEngine.RateLimit

open FirstMatch

/-- The prefix of a rule, character by character. -/
def Rule.key (rule : Rule) : List Char := rule.routePrefix.toList

/-- The rules with this method. -/
def rulesFor (method : String) : List Rule :=
  routeLimits.filter (fun rule => rule.routeMethod = method)

/-- The limit is that of the rule with the longest prefix that fits, and the default is
used exactly if no rule fits. -/
structure MostSpecific (method path : String) : Prop where
  longest : ∀ rule, Longest Rule.key (rulesFor method) path.toList rule →
    getRateLimit method path = rule.limit
  fallback : matchedRule method path = none ↔
    ∀ rule ∈ rulesFor method, ¬ rule.key <+: path.toList

/-- `POST /api/workflows`. -/
def createRule : Rule := ⟨"POST", "/api/workflows", 20⟩

/-- `POST /api/workflows/`. -/
def executeRule : Rule := ⟨"POST", "/api/workflows/", 30⟩

/-- The request falls under `POST /api/workflows/`. -/
def UnderWorkflows (method path : String) : Prop :=
  method = "POST" ∧ executeRule.key <+: path.toList

/-- The loop over the rules with the method. -/
theorem matchedRule_eq (method path : String) :
    matchedRule method path =
      (rulesFor method).find? (fun rule => rule.key.isPrefixOf path.toList) := by
  rw [matchedRule, rulesFor, List.find?_filter]
  congr 1
  funext rule
  rw [Bool.decide_and, Bool.decide_coe, Bool.decide_coe,
    Bool.decide_congr (show method = rule.routeMethod ↔ rule.routeMethod = method from eq_comm)]
  rfl

theorem key_isPrefixOf_iff (path : String) (rule : Rule) :
    rule.key.isPrefixOf path.toList = true ↔ rule.key <+: path.toList := List.isPrefixOf_iff_prefix

/-- Only one rule comes after one that shadows it. -/
theorem shadowed_eq : routeLimits.Pairwise fun rule other =>
    rule.routeMethod = other.routeMethod → rule.key <+: other.key → rule.key ≠ other.key →
      other = executeRule := by decide

/-- A rule is determined by its method and its prefix. -/
theorem eq_of_key_eq : ∀ rule ∈ routeLimits, ∀ other ∈ routeLimits,
    rule.routeMethod = other.routeMethod → rule.key = other.key → rule = other := by decide

/-- No rule is more specific than `POST /api/workflows/`. -/
theorem length_le_of_comparable : ∀ rule ∈ rulesFor "POST",
    rule.key <+: executeRule.key ∨ executeRule.key <+: rule.key →
      rule.key.length ≤ executeRule.key.length := by decide

theorem mem_rulesFor {method : String} {rule : Rule} :
    rule ∈ rulesFor method ↔ rule ∈ routeLimits ∧ rule.routeMethod = method := by
  rw [rulesFor, List.mem_filter, decide_eq_true_eq]

section

variable {method path : String}

/-- Where only that rule is shadowed, the first match is the most specific one. -/
theorem longest_of_matchedRule (h : ¬ UnderWorkflows method path) {rule : Rule}
    (hrule : matchedRule method path = some rule) :
    Longest Rule.key (rulesFor method) path.toList rule := by
  rw [matchedRule_eq] at hrule
  refine longest_of_find? (fun rule _ => key_isPrefixOf_iff path rule) ?_ hrule
  refine (List.Pairwise.sublist List.filter_sublist shadowed_eq).imp_of_mem ?_
  rintro rule other hmem hother hshadowed hmatches ⟨hshorter, hne⟩
  obtain ⟨-, hmethod⟩ := mem_rulesFor.mp hmem
  obtain ⟨-, hmethod'⟩ := mem_rulesFor.mp hother
  have heq := hshadowed (hmethod.trans hmethod'.symm) hshorter hne
  subst heq
  exact h ⟨hmethod'.symm, hmatches⟩

theorem matchedRule_eq_none_iff :
    matchedRule method path = none ↔ ∀ rule ∈ rulesFor method, ¬ rule.key <+: path.toList := by
  rw [matchedRule_eq, List.find?_eq_none]
  exact forall_congr' fun rule => imp_congr_right fun _ => not_congr (key_isPrefixOf_iff path rule)

/-- A request under `POST /api/workflows/` gets the limit of `POST /api/workflows`. -/
theorem getRateLimit_underWorkflows (h : UnderWorkflows method path) :
    getRateLimit method path = createRule.limit := by
  obtain ⟨rfl, rest, hpath⟩ := h
  have hrule : matchedRule "POST" path = some createRule := by
    rw [matchedRule_eq, ← hpath]
    rfl
  rw [getRateLimit, hrule]

theorem longest_executeRule (h : UnderWorkflows method path) :
    Longest Rule.key (rulesFor method) path.toList executeRule := by
  obtain ⟨rfl, hmatches⟩ := h
  refine ⟨by decide, hmatches, fun other hother hother' => ?_⟩
  exact length_le_of_comparable other hother (List.prefix_or_prefix_of_prefix hother' hmatches)

end

/-- The most specific limit applies to all requests but those under `POST
/api/workflows/`. -/
theorem mostSpecific_iff (method path : String) :
    MostSpecific method path ↔ ¬ UnderWorkflows method path := by
  constructor
  · intro h hunder
    have hlimit := h.longest executeRule (longest_executeRule hunder)
    rw [getRateLimit_underWorkflows hunder] at hlimit
    exact absurd hlimit (by decide)
  · intro h
    refine ⟨fun rule hlongest => ?_, matchedRule_eq_none_iff⟩
    cases hmatched : matchedRule method path with
    | none =>
      exact absurd hlongest.isMatch (matchedRule_eq_none_iff.mp hmatched rule hlongest.mem)
    | some first =>
      have hfirst := longest_of_matchedRule h hmatched
      obtain ⟨hmem, hmethod⟩ := mem_rulesFor.mp hfirst.mem
      obtain ⟨hmem', hmethod'⟩ := mem_rulesFor.mp hlongest.mem
      have heq : first = rule := eq_of_key_eq first hmem rule hmem'
        (hmethod.trans hmethod'.symm) (hfirst.key_eq hlongest)
      rw [getRateLimit, hmatched, heq]

/-- `POST /api/workflows/1/execute` is limited to 20 requests, and not to 30. -/
theorem not_mostSpecific : ¬ ∀ method path : String, MostSpecific method path := by
  intro h
  have hrule : Longest Rule.key (rulesFor "POST") "/api/workflows/1/execute".toList executeRule :=
    ⟨by decide, by decide, by decide⟩
  exact absurd ((h "POST" "/api/workflows/1/execute").longest executeRule hrule) (by decide)

end WorkflowEngine.RateLimit

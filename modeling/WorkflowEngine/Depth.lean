import Mathlib.Data.List.Chain
import WorkflowEngine.TopologicalSort

/-!
# The depth check is exact

`validate_max_depth` takes the nodes in the order of `_topological_sort` and
gives each of them the length of the longest chain that ends in it.  The
invariant of its loop is `Measured`, beside `Taking`: a depth is the length of
some chain, and it is final once the node is taken, since all dependencies of
the node are taken before.
-/

namespace WorkflowEngine

open Py

/-- A chain of dependencies, the dependency first. -/
def Chain (graph : Graph) (c : List String) : Prop :=
  c.IsChain (fun d v => d ∈ Dict.getD graph v [])

/-- The queue and the in-degrees do not depend on the depths. -/
theorem foldl_deepen_fst (current : String) (cs : List String)
    (st : (List String × Dict String Int) × Dict String Nat) :
    (cs.foldl (deepen current) st).1 = cs.foldl release st.1 := by
  induction cs generalizing st with
  | nil => rfl
  | cons c cs ih =>
    rw [List.foldl_cons, ih]
    rfl

/-- The depths after the loop over the children of `current`, which is not one
of them. -/
theorem foldl_deepen_snd {current : String} {cs : List String} (hcs : current ∉ cs)
    (st : (List String × Dict String Int) × Dict String Nat) (v : String) :
    Dict.getD (cs.foldl (deepen current) st).2 v 0 =
      if v ∈ cs then max (Dict.getD st.2 v 0) (Dict.getD st.2 current 0 + 1)
      else Dict.getD st.2 v 0 := by
  induction cs generalizing st with
  | nil => simp
  | cons c cs ih =>
    simp only [List.mem_cons, not_or] at hcs
    have hcurrent : Dict.getD (deepen current st c).2 current 0 = Dict.getD st.2 current 0 := by
      simp [deepen, Dict.getD_set, Ne.symm hcs.1]
    rw [List.foldl_cons, ih hcs.2, hcurrent]
    by_cases hv : c = v
    · subst hv
      simp [deepen, Dict.getD_set]
    · simp [deepen, Dict.getD_set, hv, Ne.symm hv]

theorem nodup_keys_foldl_deepen {current : String} {cs : List String}
    {st : (List String × Dict String Int) × Dict String Nat} (h : (Dict.keys st.2).Nodup) :
    (Dict.keys (cs.foldl (deepen current) st).2).Nodup := by
  induction cs generalizing st with
  | nil => exact h
  | cons c cs ih => exact ih (Dict.nodup_keys_set h _ _)

/-- The depths when the nodes of `result` are taken. -/
structure Measured (graph : Graph) (result : List String) (depth : Dict String Nat) : Prop where
  chain : ∀ v, ∃ c, Chain graph (c ++ [v]) ∧ c.length = Dict.getD depth v 0
  taken : ∀ d ∈ result, ∀ v, d ∈ Dict.getD graph v [] →
    Dict.getD depth d 0 + 1 ≤ Dict.getD depth v 0
  nodup : (Dict.keys depth).Nodup

/-- One turn of the loop. -/
theorem Measured.step {graph : Graph} {forward : Dict String (List String)} {current : String}
    {queue result : List String} {degree : Dict String Int} {depth : Dict String Nat}
    (hkeys : (Dict.keys graph).Nodup)
    (hforward : Dict.getD forward current [] = dependents graph current)
    (htaking : Taking graph (current :: queue) degree result)
    (h : Measured graph result depth) :
    Measured graph (result ++ [current])
      ((Dict.getD forward current []).foldl (deepen current) ((queue, degree), depth)).2 := by
  have hmem : ∀ v, v ∈ dependents graph current ↔ current ∈ Dict.getD graph v [] := by
    intro v
    rw [← List.count_pos_iff, count_dependents hkeys, List.count_pos_iff]
  have hcurrent : current ∉ result := fun hin =>
    (List.nodup_append.mp htaking.nodup).2.2 current hin current (by simp) rfl
  -- a node whose dependencies are all taken is not a child of `current`
  have hsettled : ∀ v, v ∈ result ++ current :: queue → v ∉ dependents graph current := by
    intro v hv hchild
    exact hcurrent (((htaking.mem_iff v).mp hv).2 ((hmem v).mp hchild))
  have hself : current ∉ dependents graph current := hsettled current (by simp)
  rw [hforward]
  have hdepth := foldl_deepen_snd hself ((queue, degree), depth)
  refine ⟨fun v => ?_, fun d hd v hv => ?_, nodup_keys_foldl_deepen h.nodup⟩
  · rw [hdepth]
    split
    · rename_i hchild
      rcases Nat.le_total (Dict.getD depth v 0) (Dict.getD depth current 0 + 1) with hle | hle
      · obtain ⟨c, hc, hlength⟩ := h.chain current
        refine ⟨c ++ [current], ?_, ?_⟩
        · refine List.isChain_append.mpr ⟨hc, .singleton v, ?_⟩
          simp [(hmem v).mp hchild]
        · rw [List.length_append, hlength, max_eq_right hle]
          rfl
      · rw [max_eq_left hle]
        exact h.chain v
    · exact h.chain v
  · rw [hdepth, hdepth]
    rcases List.mem_append.mp hd with hold | hnew
    · rw [if_neg (hsettled d (by simp [hold]))]
      have hle := h.taken d hold v hv
      split
      · exact hle.trans (le_max_left _ _)
      · exact hle
    · obtain rfl := List.mem_singleton.mp hnew
      rw [if_neg hself, if_pos ((hmem v).mpr hv)]
      exact le_max_right _ _

/-- The whole loop. -/
theorem depthLoop_spec {graph : Graph} {forward : Dict String (List String)}
    (hkeys : (Dict.keys graph).Nodup)
    (hforward : ∀ d, Dict.getD forward d [] = dependents graph d) (fuel : Nat)
    {queue result : List String} {degree : Dict String Int} {depth : Dict String Nat}
    (htaking : Taking graph queue degree result) (h : Measured graph result depth)
    (hfuel : graph.length ≤ fuel + result.length) :
    ∃ degree' result', Taking graph [] degree' result' ∧
      Measured graph result' (depthLoop forward fuel queue degree depth) := by
  induction fuel generalizing queue result degree depth with
  | zero =>
    have hnil := htaking.queue_eq_nil (by omega)
    exact ⟨degree, result, by rwa [hnil] at htaking, by simpa [depthLoop] using h⟩
  | succ fuel ih =>
    cases queue with
    | nil => exact ⟨degree, result, htaking, by simpa [depthLoop] using h⟩
    | cons current queue =>
      have hmeasured := h.step hkeys (hforward current) htaking
      have hstep := htaking.step hkeys (hforward current)
      rw [depthLoop]
      simp only [foldl_deepen_fst]
      exact ih hstep hmeasured (by simp only [List.length_append, List.length_singleton]; omega)

/-! ## The longest chain -/

private theorem le_foldl_max (l : List Nat) (a : Nat) : a ≤ l.foldl max a ∧ ∀ n ∈ l, n ≤ l.foldl max a := by
  induction l generalizing a with
  | nil => simp
  | cons m l ih =>
    obtain ⟨hinit, hmem⟩ := ih (max a m)
    refine ⟨(le_max_left a m).trans hinit, fun n hn => ?_⟩
    rcases List.mem_cons.mp hn with rfl | hn
    · exact (le_max_right a n).trans hinit
    · exact hmem n hn

private theorem foldl_max_mem (l : List Nat) (a : Nat) : l.foldl max a = a ∨ l.foldl max a ∈ l := by
  induction l generalizing a with
  | nil => exact .inl rfl
  | cons m l ih =>
    rw [List.foldl_cons]
    rcases ih (max a m) with heq | hmem
    · rcases max_choice a m with hmax | hmax
      · exact .inl (heq.trans hmax)
      · exact .inr (List.mem_cons.mpr (.inl (heq.trans hmax)))
    · exact .inr (List.mem_cons_of_mem _ hmem)

/-- A depth is the number of the nodes before the last one of the longest chain
there. -/
theorem length_le_of_measured {graph : Graph} {result : List String} {depth : Dict String Nat}
    (hdeps : ∀ v, Dict.getD graph v [] ⊆ result) (h : Measured graph result depth)
    {c : List String} {v : String} (hc : Chain graph (c ++ [v])) :
    c.length ≤ Dict.getD depth v 0 := by
  induction c using List.reverseRecOn generalizing v with
  | nil => exact Nat.zero_le _
  | append_singleton c d ih =>
    have hd : d ∈ Dict.getD graph v [] := by
      have hlink := (List.isChain_append.mp hc).2.2
      simpa using hlink
    have hle := ih (List.isChain_append.mp hc).1
    have htaken := h.taken d (hdeps v hd) v hd
    rw [List.length_append, List.length_singleton]
    omega

/-- The greatest depth, when all dependencies are taken. -/
theorem Measured.foldl_max_lt_iff {graph : Graph} {result : List String}
    {depth : Dict String Nat} (h : Measured graph result depth)
    (hdeps : ∀ v, Dict.getD graph v [] ⊆ result) (n : Nat) :
    (depth.map Prod.snd).foldl max 0 < n ↔ ∀ c, Chain graph c → c.length ≤ n := by
  constructor
  · intro hlt c hc
    rcases List.eq_nil_or_concat' c with rfl | ⟨c, v, rfl⟩
    · exact Nat.zero_le n
    · have hlength := length_le_of_measured hdeps h hc
      have hvalue : Dict.getD depth v 0 ≤ (depth.map Prod.snd).foldl max 0 := by
        by_cases hv : v ∈ Dict.keys depth
        · rcases List.mem_map.mp hv with ⟨⟨k, m⟩, hitem, rfl⟩
          show (Dict.get? depth k).getD 0 ≤ _
          rw [Dict.get?_of_mem h.nodup hitem]
          exact (le_foldl_max _ 0).2 m (List.mem_map.mpr ⟨_, hitem, rfl⟩)
        · rw [Dict.getD_of_not_mem hv]
          exact Nat.zero_le _
      rw [List.length_append, List.length_singleton]
      omega
  · intro hall
    rcases foldl_max_mem (depth.map Prod.snd) 0 with hzero | hmem
    · have hone := hall [""] (.singleton "")
      rw [List.length_singleton] at hone
      omega
    · rcases List.mem_map.mp hmem with ⟨⟨v, m⟩, hitem, hm⟩
      have hvalue : Dict.getD depth v 0 = m := by
        show (Dict.get? depth v).getD 0 = m
        rw [Dict.get?_of_mem h.nodup hitem]
        rfl
      rcases h.chain v with ⟨c, hc, hlength⟩
      have hbound := hall (c ++ [v]) hc
      rw [List.length_append, List.length_singleton] at hbound
      dsimp only at hm
      omega

/-- The loop starts with depth zero at the nodes in its queue. -/
private theorem measured_start {graph : Graph} {queue : List String} (h : queue.Nodup) :
    Measured graph [] (queue.map (fun node => (node, 0))) := by
  refine ⟨fun v => ⟨[], .singleton v, ?_⟩, by simp, by simpa [Dict.keys, Function.comp_def] using h⟩
  exact (Dict.getD_map_const queue id v 0).symm

/-- On a graph that has a listing, `max_found` says how long chains are. -/
theorem longestChain_lt_iff {graph : Graph} (hkeys : (Dict.keys graph).Nodup) {l : List String}
    (hlisting : Listing (Dict.getD graph · []) l) (hsub : l ⊆ Dict.keys graph)
    (hall : Dict.keys graph ⊆ l) (hdeps : ∀ v, Dict.getD graph v [] ⊆ Dict.keys graph) (n : Nat) :
    longestChain graph < n ↔ ∀ c, Chain graph c → c.length ≤ n := by
  let linked := linkDependencies graph ([], graph.map (fun item => (item.1, 0)))
  have hzeros : Dict.keys (graph.map (fun item => (item.1, (0 : Int)))) = Dict.keys graph := by
    simp [Dict.keys, Function.comp_def]
  have hnodes : Dict.keys linked.2 = Dict.keys graph :=
    (linkDependencies_keys_of_subset (by rw [hzeros]; exact List.Subset.refl _)).trans hzeros
  have hdegree : ∀ v, Dict.getD linked.2 v 0 = (Dict.getD graph v []).length := by
    intro v
    have hlinked := linkDependencies_degree hkeys ([], graph.map (fun item => (item.1, 0))) v
    rw [Dict.getD_map_const] at hlinked
    simpa using hlinked
  have hforward : ∀ d, Dict.getD linked.1 d [] = dependents graph d := by
    intro d
    simpa [Dict.getD] using
      linkDependencies_edges graph ([], graph.map (fun item => (item.1, 0))) d
  have hstart := taking_start hkeys hnodes hdegree
  obtain ⟨degree, result, hend, hmeasured⟩ := depthLoop_spec hkeys hforward graph.length hstart
    (measured_start (List.nodup_append.mp hstart.nodup).2.1) (by simp)
  have hmem : ∀ v, v ∈ result ↔ v ∈ Dict.keys graph ∧ Dict.getD graph v [] ⊆ result := by
    simpa using hend.mem_iff
  have hcomplete : ∀ v ∈ l, v ∈ result :=
    hlisting.subset_of_closed (fun v hv hd => (hmem v).mpr ⟨hsub hv, hd⟩)
  exact hmeasured.foldl_max_lt_iff (fun v d hd => hcomplete d (hall (hdeps v hd))) n

end WorkflowEngine

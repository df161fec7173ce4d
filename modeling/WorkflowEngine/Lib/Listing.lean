import Mathlib.Data.Fintype.List
import Mathlib.Data.List.Chain
import Mathlib.Data.List.Induction
import Mathlib.Data.List.Nodup
import Mathlib.Data.Set.Finite.List
import Mathlib.Logic.Relation
import Mathlib.Order.WellFounded

/-!
# Listings of a finite dependency graph

`deps` gives the dependencies of a node.  A `Listing` is a list in which every
node comes after its dependencies, so a finite graph has a listing of all its
nodes exactly when it has no cycle.

Two algorithms produce listings.  A depth-first search along the edges from a
node to its dependents finishes a node after its dependents are finished; the
finished nodes, latest first, form a `Finished` list, which is a listing once
it holds every node.  An algorithm that takes nodes whose dependencies are all
taken grows a listing from the front, and it takes every node of a graph that
has a listing (`Listing.subset_of_closed`).
-/

variable {V : Type}

/-- Every node of `l` comes after its dependencies. -/
def Listing (deps : V → List V) (l : List V) : Prop :=
  ∀ pre x post, l = pre ++ x :: post → deps x ⊆ pre

namespace Listing

variable {deps : V → List V} {l : List V}

theorem nil : Listing deps [] := by
  intro pre x post h
  simp at h

/-- A listing grows by a node whose dependencies are in it. -/
theorem concat {x : V} (h : Listing deps l) (hx : deps x ⊆ l) : Listing deps (l ++ [x]) := by
  intro pre y post heq
  rcases List.append_eq_append_iff.mp heq with ⟨mid, hpre, hmid⟩ | ⟨mid, hl, hmid⟩
  · cases mid with
    | nil =>
      simp only [List.nil_append, List.cons.injEq] at hmid
      obtain ⟨rfl, -⟩ := hmid
      simpa [hpre] using hx
    | cons z mid => simp at hmid
  · cases mid with
    | nil =>
      simp only [List.nil_append, List.cons.injEq] at hmid
      obtain ⟨rfl, -⟩ := hmid
      simpa [hl] using hx
    | cons z mid =>
      simp only [List.cons_append, List.cons.injEq] at hmid
      obtain ⟨rfl, -⟩ := hmid
      exact h pre y mid hl

/-- A set that contains every node of the listing whose dependencies it
contains is all of the listing. -/
theorem subset_of_closed {P : V → Prop} (h : Listing deps l)
    (hP : ∀ x ∈ l, (∀ d ∈ deps x, P d) → P x) : ∀ x ∈ l, P x := by
  -- Induction on the front of the listing: what precedes `x` has `P`.
  have hfront : ∀ front back, l = front ++ back → ∀ x ∈ front, P x := by
    intro front
    induction front using List.reverseRecOn with
    | nil => simp
    | append_singleton front y ih =>
      intro back heq x hx
      have hbefore := ih (y :: back) (by simpa using heq)
      rcases List.mem_append.mp hx with hx | hx
      · exact hbefore x hx
      · obtain rfl : x = y := by simpa using hx
        refine hP x (by simp [heq]) (fun d hd => hbefore d ?_)
        exact h front x back (by simpa using heq) hd
  exact hfront l [] (by simp)

/-- A graph whose edges all lead to nodes of a listing has no cycle. -/
theorem acyclic (h : Listing deps l) (hall : ∀ x, deps x ≠ [] → x ∈ l) (x : V) :
    ¬ Relation.TransGen (fun d x => d ∈ deps x) x x := by
  have hacc : ∀ x ∈ l, Acc (fun d x => d ∈ deps x) x :=
    h.subset_of_closed fun x _ hdeps => Acc.intro x hdeps
  have hwf : WellFounded (fun d x : V => d ∈ deps x) := by
    refine ⟨fun x => ?_⟩
    by_cases hx : deps x = []
    · exact Acc.intro x fun d hd => by simp [hx] at hd
    · exact hacc x (hall x hx)
  exact fun hcycle => hwf.transGen.irrefl.irrefl x hcycle

end Listing

/-- Nodes in the order in which a depth-first search finishes them, latest
first: each node comes before the nodes that `next` leads to. -/
inductive Finished (next : V → List V) : List V → Prop where
  | nil : Finished next []
  | cons {x : V} {l : List V} (fresh : x ∉ l) (closed : next x ⊆ l) (tail : Finished next l) :
      Finished next (x :: l)

namespace Finished

variable {next deps : V → List V} {l : List V}

theorem nodup (h : Finished next l) : l.Nodup := by
  induction h with
  | nil => exact List.nodup_nil
  | cons fresh _ _ ih => exact List.nodup_cons.mpr ⟨fresh, ih⟩

/-- What a node leads to stands behind it. -/
theorem subset_of_append {pre post : List V} {x : V} (h : Finished next (pre ++ x :: post)) :
    next x ⊆ post := by
  induction pre with
  | nil =>
    cases h with
    | cons _ closed _ => exact closed
  | cons y pre ih =>
    cases h with
    | cons _ _ tail => exact ih tail

/-- The finished nodes are a listing, once they hold every dependency. -/
theorem listing (h : Finished next l) (hnext : ∀ x ∈ l, ∀ d ∈ deps x, d ∈ l ∧ x ∈ next d) :
    Listing deps l := by
  intro pre x post heq d hd
  obtain ⟨hdl, hxd⟩ := hnext x (by simp [heq]) d hd
  have hnodup : (pre ++ x :: post).Nodup := heq ▸ h.nodup
  have hx : x ∉ post := (List.nodup_cons.mp (List.nodup_append.mp hnodup).2.1).1
  rw [heq, List.mem_append, List.mem_cons] at hdl
  rcases hdl with hpre | rfl | hpost
  · exact hpre
  · exact absurd (subset_of_append (heq ▸ h) hxd) hx
  · -- A dependency behind `x` would have `x` behind it.
    obtain ⟨p, q, rfl⟩ := List.append_of_mem hpost
    have hsplit : l = (pre ++ x :: p) ++ d :: q := by simp [heq]
    have hxq : x ∈ q := subset_of_append (hsplit ▸ h) hxd
    exact absurd (by simp [hxq]) hx

end Finished

/-! ## Cycles -/

/-- A path along `r` that ends where it begins and meets no other node twice. -/
structure IsCycle (r : V → V → Prop) (path : List V) : Prop where
  long : 2 ≤ path.length
  closed : path.head? = path.getLast?
  linked : path.IsChain r
  distinct : path.dropLast.Nodup

/-- The first node of a path leads to the last. -/
theorem transGen_of_isChain {r : V → V → Prop} {a b : V} {rest : List V}
    (h : (a :: b :: rest).IsChain r) {last : V} (hlast : (a :: b :: rest).getLast? = some last) :
    Relation.TransGen r a last := by
  induction rest generalizing a b with
  | nil =>
    cases hlast
    exact .single (List.isChain_cons_cons.mp h).1
  | cons c rest ih =>
    obtain ⟨hstep, hrest⟩ := List.isChain_cons_cons.mp h
    exact .head hstep (ih hrest (by simpa using hlast))

/-- The first node of a cycle leads back to itself. -/
theorem IsCycle.leads_back {r : V → V → Prop} {path : List V} (h : IsCycle r path) :
    ∃ v, Relation.TransGen r v v := by
  obtain ⟨a, b, rest, rfl⟩ : ∃ a b rest, path = a :: b :: rest := by
    rcases path with _ | ⟨a, _ | ⟨b, rest⟩⟩
    · exact absurd h.long (by simp)
    · exact absurd h.long (by simp)
    · exact ⟨a, b, rest, rfl⟩
  exact ⟨a, transGen_of_isChain h.linked h.closed.symm⟩

/-- The node leads to a cycle. -/
def LeadsToCycle (r : V → V → Prop) (v : V) : Prop :=
  ∃ u, Relation.ReflTransGen r v u ∧ Relation.TransGen r u u

/-- No node of a listing is on a cycle of dependencies. -/
theorem Listing.not_cyclic {deps : V → List V} {l : List V} (h : Listing deps l) :
    ∀ x ∈ l, ¬ Relation.TransGen (fun v d => d ∈ deps v) x x := by
  refine h.subset_of_closed fun x _ hdeps hcycle => ?_
  rcases Relation.TransGen.head'_iff.mp hcycle with ⟨d, hd, hback⟩
  exact hdeps d hd (.tail' hback hd)

/-- An algorithm that takes exactly the nodes whose dependencies are all taken
leaves those that lead to a cycle. -/
theorem Listing.mem_iff {deps : V → List V} {l nodes : List V} (h : Listing deps l)
    (hclosed : ∀ v ∈ nodes, deps v ⊆ nodes) (htaken : ∀ v, v ∈ l ↔ v ∈ nodes ∧ deps v ⊆ l) (v : V) :
    v ∈ l ↔ v ∈ nodes ∧ ¬ LeadsToCycle (fun v d => d ∈ deps v) v := by
  constructor
  · intro hv
    refine ⟨((htaken v).mp hv).1, ?_⟩
    rintro ⟨u, hreach, hcycle⟩
    have hu : u ∈ l := by
      clear hcycle
      induction hreach with
      | refl => exact hv
      | tail _ hstep ih => exact ((htaken _).mp ih).2 hstep
    exact h.not_cyclic u hu hcycle
  · rintro ⟨hv, hfree⟩
    -- The nodes that `v` leads to are finitely many, and no cycle is among them.
    let reached := {u // Relation.ReflTransGen (fun v d => d ∈ deps v) v u}
    have hnodes : ∀ u : reached, u.1 ∈ nodes := by
      rintro ⟨u, hreach⟩
      induction hreach with
      | refl => exact hv
      | tail _ hstep ih => exact hclosed _ ih hstep
    have hfinite : Finite reached :=
      (Set.Finite.subset (List.finite_toSet nodes) fun u hu => hnodes ⟨u, hu⟩).to_subtype
    let below : reached → reached → Prop :=
      fun d u => Relation.TransGen (fun v d => d ∈ deps v) u.1 d.1
    have htrans : IsTrans reached below := ⟨fun _ _ _ hab hbc => hbc.trans hab⟩
    have hirrefl : Std.Irrefl below := ⟨fun u hcycle => hfree ⟨u.1, u.2, hcycle⟩⟩
    have hwf : WellFounded below := Finite.wellFounded_of_trans_of_irrefl below
    have hall : ∀ u : reached, u.1 ∈ l := by
      intro u
      induction u using hwf.induction with
      | h u ih =>
        refine (htaken u.1).mpr ⟨hnodes u, fun d hd => ?_⟩
        exact ih ⟨d, u.2.tail hd⟩ (.single hd)
    exact hall ⟨v, .refl⟩

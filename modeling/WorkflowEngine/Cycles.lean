import Mathlib.Data.List.Chain
import WorkflowEngine.Graph
import WorkflowEngine.Lib.Listing

/-!
# Cycle detection is exact

Where `detect_cycles` raises nothing, the graph has a listing of all its nodes
in which every node comes after its dependencies.  The invariant of the
depth-first search is `Searched`: the black nodes are `Finished`, and the gray
ones are those of the calls that are still open.

The fuel of `dfs` is never used up, since every call paints a white node.

Where it raises, the gray child that it met is on the stack of open calls, and
the stack is a path (`Stacked`), so the graph has a cycle.
-/

namespace WorkflowEngine

open Py

/-- The state of the search: `black` are the finished nodes, latest first, and
`gray` are the nodes of the open calls. -/
structure Searched (nodes : List String) (next : String → List String) (st : DfsState)
    (black gray : List String) : Prop where
  black_iff : ∀ v, st.colorOf v = .black ↔ v ∈ black
  gray_iff : ∀ v, st.colorOf v = .gray ↔ v ∈ gray
  finished : Finished next black
  gray_nodup : gray.Nodup
  black_subset : black ⊆ nodes
  gray_subset : gray ⊆ nodes

theorem colorOf_paint (st : DfsState) (node v : String) (c : Color) :
    (st.paint node c).colorOf v = if node = v then c else st.colorOf v := by
  simp [DfsState.paint, DfsState.colorOf, Dict.getD_set]

namespace Searched

variable {nodes black gray : List String} {next : String → List String} {st : DfsState}
  {node : String}

theorem not_mem_of_white (h : Searched nodes next st black gray) (hw : st.colorOf node = .white) :
    node ∉ black ∧ node ∉ gray := by
  rw [← h.black_iff, ← h.gray_iff, hw]
  simp

/-- A call opens: its white node turns gray. -/
theorem paint_gray (h : Searched nodes next st black gray) (hw : st.colorOf node = .white)
    (hnode : node ∈ nodes) : Searched nodes next (st.paint node .gray) black (node :: gray) := by
  obtain ⟨hb, hg⟩ := h.not_mem_of_white hw
  refine ⟨fun v => ?_, fun v => ?_, h.finished, List.nodup_cons.mpr ⟨hg, h.gray_nodup⟩,
    h.black_subset, List.cons_subset.mpr ⟨hnode, h.gray_subset⟩⟩
  · rw [colorOf_paint]
    by_cases hv : node = v
    · subst hv
      simp [hb]
    · simp [hv, h.black_iff]
  · rw [colorOf_paint]
    by_cases hv : node = v
    · simp [hv]
    · simp [hv, h.gray_iff, Ne.symm hv]

/-- A call returns: what its node leads to is finished, and the node turns
black. -/
theorem paint_black (h : Searched nodes next st black (node :: gray)) (hnext : next node ⊆ black) :
    Searched nodes next (st.paint node .black) (node :: black) gray := by
  obtain ⟨hg, hnodup⟩ := List.nodup_cons.mp h.gray_nodup
  have hgray : st.colorOf node = .gray := (h.gray_iff node).mpr (by simp)
  have hb : node ∉ black := by
    rw [← h.black_iff, hgray]
    simp
  refine ⟨fun v => ?_, fun v => ?_, .cons hb hnext h.finished, hnodup,
    List.cons_subset.mpr ⟨h.gray_subset (by simp), h.black_subset⟩,
    fun v hv => h.gray_subset (by simp [hv])⟩
  · rw [colorOf_paint]
    by_cases hv : node = v
    · simp [hv]
    · simp [hv, h.black_iff, Ne.symm hv]
  · rw [colorOf_paint]
    by_cases hv : node = v
    · subst hv
      simp [hg]
    · simp [hv, h.gray_iff, Ne.symm hv]

/-- A white node is neither finished nor open, so there is room for it. -/
theorem length_lt (h : Searched nodes next st black gray) (hw : st.colorOf node = .white)
    (hnode : node ∈ nodes) : black.length + gray.length < nodes.length := by
  obtain ⟨hb, hg⟩ := h.not_mem_of_white hw
  have hdisjoint : ∀ x ∈ black, ∀ y ∈ gray, x ≠ y := by
    rintro x hx y hy rfl
    have hblack := (h.black_iff x).mpr hx
    rw [(h.gray_iff x).mpr hy] at hblack
    cases hblack
  have hnodup : (node :: (black ++ gray)).Nodup :=
    List.nodup_cons.mpr ⟨by simp [hb, hg],
      List.nodup_append.mpr ⟨h.finished.nodup, h.gray_nodup, hdisjoint⟩⟩
  have hsubset : node :: (black ++ gray) ⊆ nodes := by
    intro v hv
    rcases List.mem_cons.mp hv with rfl | hv
    · exact hnode
    · exact (List.mem_append.mp hv).elim (fun hv => h.black_subset hv) (fun hv => h.gray_subset hv)
  have hle := (List.subperm_of_subset hnodup hsubset).length_le
  simp only [List.length_cons, List.length_append] at hle
  omega

end Searched

/-- What a call of the search on `node` does when it finds no cycle. -/
def Explores (nodes : List String) (next : String → List String) (gray : List String)
    (node : String) (black : List String) (result : DfsState) : Prop :=
  ∃ black', Searched nodes next result black' gray ∧ black ⊆ black' ∧ node ∈ black'

section

variable {nodes : List String} {next : String → List String} {gray : List String}

/-- The loop over the children finishes all of them, if the calls do. -/
private theorem forChildren_spec {search : String → DfsState → Option (List String) × DfsState}
    (bound : Nat)
    (hsearch : ∀ node st st' black, Searched nodes next st black gray → node ∈ nodes →
      st.colorOf node = .white → bound ≤ black.length → search node st = (none, st') →
      Explores nodes next gray node black st')
    (node : String) (cs : List String) (hcs : cs ⊆ nodes) {st st' : DfsState}
    {black : List String} (hst : Searched nodes next st black gray) (hbound : bound ≤ black.length)
    (hrun : forChildren search node cs st = (none, st')) :
    ∃ black', Searched nodes next st' black' gray ∧ black ⊆ black' ∧ cs ⊆ black' := by
  induction cs generalizing st black with
  | nil =>
    simp only [forChildren, Prod.mk.injEq, true_and] at hrun
    exact ⟨black, hrun ▸ hst, List.Subset.refl _, by simp⟩
  | cons child rest ih =>
    obtain ⟨hchild, hrest⟩ := List.cons_subset.mp hcs
    rw [forChildren] at hrun
    split at hrun
    · simp at hrun
    · rename_i hwhite
      split at hrun
      · simp at hrun
      · rename_i st₁ hcall
        have hopen : Searched nodes next { st with parent := Dict.set st.parent child (some node) }
            black gray := ⟨hst.black_iff, hst.gray_iff, hst.finished, hst.gray_nodup,
          hst.black_subset, hst.gray_subset⟩
        obtain ⟨black₁, hst₁, hsub₁, hmem₁⟩ :=
          hsearch child _ st₁ black hopen hchild hwhite hbound hcall
        have hle : black.length ≤ black₁.length :=
          (List.subperm_of_subset hst.finished.nodup hsub₁).length_le
        obtain ⟨black', hst', hsub', hall⟩ := ih hrest hst₁ (hbound.trans hle) hrun
        exact ⟨black', hst', List.Subset.trans hsub₁ hsub', List.cons_subset.mpr ⟨hsub' hmem₁, hall⟩⟩
    · rename_i hblack
      obtain ⟨black', hst', hsub', hall⟩ := ih hrest hst hbound hrun
      have hmem : child ∈ black' := hsub' ((hst.black_iff child).mp hblack)
      exact ⟨black', hst', hsub', List.cons_subset.mpr ⟨hmem, hall⟩⟩

end

/-- A call of `dfs` that finds no cycle finishes its node. -/
theorem dfs_spec {nodes : List String} {children : Dict String (List String)}
    (hclosed : ∀ v, Dict.getD children v [] ⊆ nodes) (fuel : Nat) {gray black : List String}
    {node : String} {st st' : DfsState}
    (hst : Searched nodes (Dict.getD children · []) st black gray) (hnode : node ∈ nodes)
    (hwhite : st.colorOf node = .white) (hfuel : nodes.length < fuel + black.length + gray.length)
    (hrun : dfs children fuel node st = (none, st')) :
    Explores nodes (Dict.getD children · []) gray node black st' := by
  induction fuel generalizing gray black node st st' with
  | zero =>
    have hlt := hst.length_lt hwhite hnode
    omega
  | succ fuel ih =>
    rw [dfs] at hrun
    split at hrun
    · simp at hrun
    · rename_i st₁ hloop
      simp only [Prod.mk.injEq, true_and] at hrun
      subst hrun
      -- The calls on the children run with one more gray node.
      obtain ⟨black₁, hst₁, hsub, hall⟩ := forChildren_spec black.length
        (fun n s s' b hs hn hw hb hr => ih hs hn hw (by simp only [List.length_cons]; omega) hr)
        node (Dict.getD children node []) (hclosed node) (hst.paint_gray hwhite hnode) le_rfl hloop
      exact ⟨node :: black₁, hst₁.paint_black hall, List.Subset.trans hsub (List.subset_cons_self _ _), by simp⟩

private theorem detectFrom_spec {nodes : List String} {children : Dict String (List String)}
    (hclosed : ∀ v, Dict.getD children v [] ⊆ nodes) (fuel : Nat) (hfuel : nodes.length < fuel)
    (rest : List String) (hrest : rest ⊆ nodes) {st : DfsState} {black : List String}
    (hst : Searched nodes (Dict.getD children · []) st black [])
    (hrun : detectFrom children fuel rest st = .ok ()) :
    ∃ black', Finished (Dict.getD children · []) black' ∧ black ⊆ black' ∧ rest ⊆ black' ∧
      black' ⊆ nodes := by
  induction rest generalizing st black with
  | nil => exact ⟨black, hst.finished, List.Subset.refl _, by simp, hst.black_subset⟩
  | cons node rest ih =>
    obtain ⟨hnode, hrest'⟩ := List.cons_subset.mp hrest
    rw [detectFrom] at hrun
    split at hrun
    · rename_i hwhite
      split at hrun
      · simp at hrun
      · rename_i st₁ hcall
        obtain ⟨black₁, hst₁, hsub₁, hmem₁⟩ := dfs_spec hclosed fuel hst hnode hwhite
          (by simp only [List.length_nil]; omega) hcall
        obtain ⟨black', hfin, hsub', hall, hin⟩ := ih hrest' hst₁ hrun
        exact ⟨black', hfin, List.Subset.trans hsub₁ hsub', List.cons_subset.mpr ⟨hsub' hmem₁, hall⟩, hin⟩
    · rename_i hcolor
      have hblack : node ∈ black := by
        rw [← hst.black_iff]
        cases hc : st.colorOf node with
        | white => exact absurd hc hcolor
        | gray => simpa using (hst.gray_iff node).mp hc
        | black => rfl
      obtain ⟨black', hfin, hsub', hall, hin⟩ := ih hrest' hst hrun
      exact ⟨black', hfin, hsub', List.cons_subset.mpr ⟨hsub' hblack, hall⟩, hin⟩

/-- Two searches that agree on white children run the loop alike. -/
private theorem forChildren_congr
    {search search' : String → DfsState → Option (List String) × DfsState} {nodes : List String}
    {next : String → List String} {gray : List String} (bound : Nat)
    (hsearch : ∀ node st st' black, Searched nodes next st black gray → node ∈ nodes →
      st.colorOf node = .white → bound ≤ black.length → search node st = (none, st') →
      Explores nodes next gray node black st')
    (hagree : ∀ node st black, Searched nodes next st black gray → node ∈ nodes →
      st.colorOf node = .white → bound ≤ black.length → search node st = search' node st)
    (node : String) (cs : List String) (hcs : cs ⊆ nodes) {st : DfsState} {black : List String}
    (hst : Searched nodes next st black gray) (hbound : bound ≤ black.length) :
    forChildren search node cs st = forChildren search' node cs st := by
  induction cs generalizing st black with
  | nil => rfl
  | cons child rest ih =>
    obtain ⟨hchild, hrest⟩ := List.cons_subset.mp hcs
    have hopen : Searched nodes next { st with parent := Dict.set st.parent child (some node) }
        black gray := ⟨hst.black_iff, hst.gray_iff, hst.finished, hst.gray_nodup,
      hst.black_subset, hst.gray_subset⟩
    rw [forChildren, forChildren]
    cases hcolor : st.colorOf child with
    | gray => rfl
    | black => exact ih hrest hst hbound
    | white =>
      simp only [← hagree child _ black hopen hchild hcolor hbound]
      rcases hcall : search child { st with parent := Dict.set st.parent child (some node) } with
        ⟨found, st₁⟩
      cases found with
      | some cycle => rfl
      | none =>
        obtain ⟨black₁, hst₁, hsub₁, -⟩ := hsearch child _ st₁ black hopen hchild hcolor hbound hcall
        have hle : black.length ≤ black₁.length :=
          (List.subperm_of_subset hst.finished.nodup hsub₁).length_le
        exact ih hrest hst₁ (hbound.trans hle)

/-- The recursion is not deeper than there are white nodes: more fuel than that
changes nothing. -/
theorem dfs_fuel {nodes : List String} {children : Dict String (List String)}
    (hclosed : ∀ v, Dict.getD children v [] ⊆ nodes) {fuel fuel' : Nat} {gray black : List String}
    {node : String} {st : DfsState}
    (hst : Searched nodes (Dict.getD children · []) st black gray) (hnode : node ∈ nodes)
    (hwhite : st.colorOf node = .white) (hfuel : nodes.length < fuel + black.length + gray.length)
    (hfuel' : nodes.length < fuel' + black.length + gray.length) :
    dfs children fuel node st = dfs children fuel' node st := by
  have hroom := hst.length_lt hwhite hnode
  induction fuel generalizing fuel' gray black node st with
  | zero => omega
  | succ fuel ih =>
    cases fuel' with
    | zero => omega
    | succ fuel' =>
      have hloop : forChildren (dfs children fuel) node (Dict.getD children node [])
          (st.paint node .gray) = forChildren (dfs children fuel') node
            (Dict.getD children node []) (st.paint node .gray) := by
        refine forChildren_congr black.length ?_ ?_ node _ (hclosed node)
          (hst.paint_gray hwhite hnode) le_rfl
        · intro child s s' b hs hn hw hb hr
          exact dfs_spec hclosed fuel hs hn hw (by simp only [List.length_cons]; omega) hr
        · intro child s b hs hn hw hb
          exact ih hs hn hw (by simp only [List.length_cons]; omega)
            (by simp only [List.length_cons]; omega) (hs.length_lt hw hn)
      rw [dfs, dfs, hloop]

/-- So it is with the loop over the nodes. -/
private theorem detectFrom_fuel {nodes : List String} {children : Dict String (List String)}
    (hclosed : ∀ v, Dict.getD children v [] ⊆ nodes) {fuel fuel' : Nat}
    (hfuel : nodes.length < fuel) (hfuel' : nodes.length < fuel') (rest : List String)
    (hrest : rest ⊆ nodes) {st : DfsState} {black : List String}
    (hst : Searched nodes (Dict.getD children · []) st black []) :
    detectFrom children fuel rest st = detectFrom children fuel' rest st := by
  induction rest generalizing st black with
  | nil => rfl
  | cons node rest ih =>
    obtain ⟨hnode, hrest'⟩ := List.cons_subset.mp hrest
    rw [detectFrom, detectFrom]
    by_cases hwhite : st.colorOf node = .white
    · rw [if_pos hwhite, if_pos hwhite, dfs_fuel hclosed hst hnode hwhite
        (by simp only [List.length_nil]; omega) (show _ < fuel' + _ + _ by
          simp only [List.length_nil]; omega)]
      rcases hcall : dfs children fuel' node st with ⟨found, st₁⟩
      cases found with
      | some cycle => rfl
      | none =>
        obtain ⟨black₁, hst₁, -, -⟩ := dfs_spec hclosed fuel' hst hnode hwhite
          (by simp only [List.length_nil]; omega) hcall
        exact ih hrest' hst₁
    · rw [if_neg hwhite, if_neg hwhite]
      exact ih hrest' hst

theorem childrenOf_subset (graph : Graph) (v : String) :
    Dict.getD (childrenOf graph) v [] ⊆ Dict.keys graph := by
  intro w hw
  rw [getD_childrenOf] at hw
  obtain ⟨deps, hitem, -⟩ := mem_dependents.mp hw
  exact List.mem_map.mpr ⟨_, hitem, rfl⟩

/-- At first every node is white. -/
private theorem searched_start (graph : Graph) (next : String → List String) :
    Searched (Dict.keys graph) next
      ⟨graph.map (fun item => (item.1, .white)), graph.map (fun item => (item.1, none))⟩ [] [] := by
  have hwhite : ∀ v, (DfsState.colorOf ⟨graph.map (fun item => (item.1, .white)),
      graph.map (fun item => (item.1, none))⟩ v) = .white := by
    intro v
    induction graph with
    | nil => rfl
    | cons item graph ih =>
      simp only [DfsState.colorOf, Dict.getD, List.map_cons, Dict.get?_cons] at ih ⊢
      split
      · rfl
      · exact ih
  exact ⟨fun v => by simp [hwhite v], fun v => by simp [hwhite v], .nil, List.nodup_nil,
    List.nil_subset _, List.nil_subset _⟩

/-- `detect_cycles` does not run out of fuel. -/
theorem detectCycles_fuel (graph : Graph) {fuel : Nat} (hfuel : graph.length < fuel) :
    detectFrom (childrenOf graph) fuel (Dict.keys graph)
      ⟨graph.map (fun item => (item.1, .white)), graph.map (fun item => (item.1, none))⟩ =
      detectCycles graph :=
  detectFrom_fuel (childrenOf_subset graph) (by simpa [Dict.keys] using hfuel)
    (by simp [Dict.keys]) (Dict.keys graph) (List.Subset.refl _) (searched_start graph _)

/-- A graph whose dependencies are all nodes, and on which `detect_cycles`
raises nothing, has a listing of its nodes. -/
theorem listing_of_detectCycles {graph : Graph} (hkeys : (Dict.keys graph).Nodup)
    (hdeps : ∀ v, Dict.getD graph v [] ⊆ Dict.keys graph) (h : detectCycles graph = .ok ()) :
    ∃ l, Listing (Dict.getD graph · []) l ∧ l ⊆ Dict.keys graph ∧ Dict.keys graph ⊆ l := by
  obtain ⟨l, hfin, -, hall, hin⟩ := detectFrom_spec (childrenOf_subset graph) (graph.length + 1)
    (by simp [Dict.keys]) (Dict.keys graph) (List.Subset.refl _) (searched_start graph _) h
  refine ⟨l, hfin.listing (fun x hx d hd => ?_), hin, hall⟩
  refine ⟨hall (hdeps x hd), ?_⟩
  rw [getD_childrenOf, ← List.count_pos_iff, count_dependents hkeys]
  exact List.count_pos_iff.mpr hd

/-! ## A reported path is a cycle -/

/-- The nodes of the open calls, latest first: each call was made by the one
behind it. -/
def Stacked (next : String → List String) (gray : List String) : Prop :=
  gray.IsChain (fun a b => a ∈ next b)

/-- Each open call has the one behind it as its parent. -/
def Threaded (st : DfsState) (gray : List String) : Prop :=
  gray.IsChain (fun a b => Dict.get? st.parent a = some (some b))

/-- What a search leaves of the nodes that it met before. -/
structure Continues (st st' : DfsState) : Prop where
  met : ∀ v, st.colorOf v ≠ .white → st'.colorOf v ≠ .white
  parents : ∀ v, st.colorOf v ≠ .white → Dict.get? st'.parent v = Dict.get? st.parent v
  size : st.parent.length ≤ st'.parent.length

namespace Continues

variable {st st' st'' : DfsState}

theorem refl (st : DfsState) : Continues st st := ⟨fun _ h => h, fun _ _ => rfl, le_rfl⟩

theorem trans (h : Continues st st') (h' : Continues st' st'') : Continues st st'' where
  met v hv := h'.met v (h.met v hv)
  parents v hv := (h'.parents v (h.met v hv)).trans (h.parents v hv)
  size := h.size.trans h'.size

theorem paint {c : Color} (hc : c ≠ .white) (st : DfsState) (node : String) :
    Continues st (st.paint node c) where
  met v hv := by
    rw [colorOf_paint]
    split
    · exact hc
    · exact hv
  parents _ _ := rfl
  size := le_rfl

/-- A white node gets a parent. -/
theorem adopt {child : String} (hwhite : st.colorOf child = .white) (node : String) :
    Continues st { st with parent := Dict.set st.parent child (some node) } where
  met _ hv := hv
  parents v hv := by
    have hne : child ≠ v := by
      rintro rfl
      exact hv hwhite
    exact Dict.get?_set_ne _ _ hne
  size := Dict.length_le_length_set st.parent child (some node)

theorem threaded (h : Continues st st') {gray : List String} (hthread : Threaded st gray)
    (hgray : ∀ v ∈ gray, st.colorOf v ≠ .white) : Threaded st' gray := by
  refine List.IsChain.imp_of_mem_imp (fun a b ha _ hparent => ?_) hthread
  rwa [h.parents a (hgray a ha)]

end Continues

theorem continues_forChildren {search : String → DfsState → Option (List String) × DfsState}
    (hsearch : ∀ child st, Continues st (search child st).2) (node : String) (cs : List String)
    (st : DfsState) : Continues st (forChildren search node cs st).2 := by
  induction cs generalizing st with
  | nil => exact .refl st
  | cons child rest ih =>
    rw [forChildren]
    split
    · exact .refl st
    · rename_i hwhite
      have hcall := (Continues.adopt hwhite node).trans (hsearch child _)
      split
      · rename_i found st₁ hrun
        rwa [hrun] at hcall
      · rename_i st₁ hrun
        rw [hrun] at hcall
        exact hcall.trans (ih st₁)
    · exact ih st

theorem continues_dfs (children : Dict String (List String)) (fuel : Nat) (node : String)
    (st : DfsState) : Continues st (dfs children fuel node st).2 := by
  induction fuel generalizing node st with
  | zero => exact .refl st
  | succ fuel ih =>
    have hloop := (Continues.paint (show Color.gray ≠ .white by decide) st node).trans
      (continues_forChildren ih node (Dict.getD children node []) (st.paint node .gray))
    rw [dfs]
    split
    · rename_i found st₁ hrun
      rwa [hrun] at hloop
    · rename_i st₁ hrun
      rw [hrun] at hloop
      exact hloop.trans (.paint (by decide) st₁ node)

/-- From an open call the parents lead back to every call that is open behind it. -/
theorem reconstructPath_eq {parent : Dict String (Option String)} {toNode : String}
    (pre : List String) {post path : List String} {current : String} {fuel : Nat}
    (hthread : (pre ++ toNode :: post).IsChain (fun a b => Dict.get? parent a = some (some b)))
    (hmem : toNode ∉ pre) (hfuel : pre.length < fuel)
    (hcurrent : (pre ++ toNode :: post).head? = some current) :
    reconstructPath parent toNode fuel current path = path ++ pre := by
  induction pre generalizing path current fuel with
  | nil =>
    cases hcurrent
    cases fuel with
    | zero => omega
    | succ fuel => simp [reconstructPath]
  | cons a pre ih =>
    cases hcurrent
    obtain ⟨hne, hrest⟩ := not_or.mp (fun h => hmem (List.mem_cons.mpr h))
    obtain ⟨next, hnext⟩ : ∃ next, (pre ++ toNode :: post).head? = some next :=
      ⟨_, List.head?_eq_some_head (by simp)⟩
    have hparent : Dict.get? parent a = some (some next) :=
      List.isChain_cons.mp hthread |>.1 next hnext
    cases fuel with
    | zero => omega
    | succ fuel =>
      rw [reconstructPath, if_neg (Ne.symm hne), hparent]
      refine (ih (List.isChain_cons.mp hthread).2 hrest (by simpa using hfuel) hnext).trans ?_
      simp

/-- The path from a gray child to itself along the open calls is a cycle. -/
theorem isCycle_reconstruct {next : String → List String} {st : DfsState} {node child : String}
    {gray : List String} (hthread : Threaded st (node :: gray)) (hstack : Stacked next (node :: gray))
    (hnodup : (node :: gray).Nodup) (hlength : (node :: gray).length ≤ st.parent.length)
    (hedge : child ∈ next node) (hgray : child ∈ node :: gray) :
    IsCycle (fun a b => b ∈ next a) (reconstructCycle st.parent node child) := by
  obtain ⟨pre, post, hsplit⟩ := List.append_of_mem hgray
  rw [hsplit] at hthread hstack hnodup hlength
  have hdisjoint := (List.nodup_append.mp hnodup).2.2
  have hmem : child ∉ pre := fun h => hdisjoint child h child List.mem_cons_self rfl
  have hpath : reconstructPath st.parent child (st.parent.length + 1) node [child] =
      [child] ++ pre := by
    refine reconstructPath_eq pre hthread hmem ?_ ?_
    · simp only [List.length_append, List.length_cons] at hlength
      omega
    · rw [← hsplit]
      rfl
  have hcycle : reconstructCycle st.parent node child = child :: (pre.reverse ++ [child]) := by
    rw [reconstructCycle, hpath]
    simp
  rw [hcycle]
  constructor
  case long => simp
  case closed => rw [← List.cons_append, List.getLast?_concat]; rfl
  case linked =>
    -- Backwards the stack is a path, and the edge to the child closes it.
    have hback : (child :: pre.reverse).IsChain (fun a b => b ∈ next a) := by
      have hfront : (pre ++ [child]).IsChain (fun a b => a ∈ next b) := by
        have hstack : ((pre ++ [child]) ++ post).IsChain (fun a b => a ∈ next b) := by
          rw [List.append_assoc]
          exact hstack
        exact hstack.left_of_append
      have hreverse := List.isChain_reverse.mpr hfront
      rw [List.reverse_append] at hreverse
      exact hreverse
    rw [← List.cons_append]
    refine List.isChain_append.mpr ⟨hback, .singleton _, fun a ha b hb => ?_⟩
    cases hb
    have hlast : (child :: pre.reverse).getLast? = some node := by
      have hhead : (pre ++ [child]).head? = some node := by
        cases pre with
        | nil => simpa using (List.cons.inj hsplit).1.symm
        | cons x pre => simpa using (List.cons.inj hsplit).1.symm
      rw [← List.head?_reverse, List.reverse_cons, List.reverse_reverse]
      exact hhead
    rw [hlast] at ha
    cases ha
    exact hedge
  case distinct =>
    rw [← List.cons_append, List.dropLast_concat]
    exact List.nodup_cons.mpr ⟨fun h => hmem (List.mem_reverse.mp h),
      List.nodup_reverse.mpr (List.nodup_append.mp hnodup).1⟩

section

variable {nodes : List String} {next : String → List String} {gray : List String}

/-- What a call of the search finds it reports unchanged, if its calls do. -/
private theorem forChildren_reports
    {search : String → DfsState → Option (List String) × DfsState} (bound : Nat) (node : String)
    (hsearch : ∀ child st st' black, Searched nodes next st black (node :: gray) →
      child ∈ nodes → st.colorOf child = .white → bound ≤ black.length →
      search child st = (none, st') → Explores nodes next (node :: gray) child black st')
    (hcontinues : ∀ child st, Continues st (search child st).2)
    (hfound : ∀ child st st' black cycle, Searched nodes next st black (node :: gray) →
      Threaded st (child :: node :: gray) → nodes.length ≤ st.parent.length →
      child ∈ nodes → child ∈ next node → st.colorOf child = .white → bound ≤ black.length →
      search child st = (some cycle, st') → IsCycle (fun a b => b ∈ next a) cycle)
    (hstack : Stacked next (node :: gray)) (cs : List String) (hcs : cs ⊆ nodes)
    (hnext : cs ⊆ next node) {st st' : DfsState} {black : List String} {cycle : List String}
    (hst : Searched nodes next st black (node :: gray)) (hthread : Threaded st (node :: gray))
    (hsize : nodes.length ≤ st.parent.length) (hbound : bound ≤ black.length)
    (hrun : forChildren search node cs st = (some cycle, st')) : IsCycle (fun a b => b ∈ next a) cycle := by
  induction cs generalizing st black with
  | nil => cases hrun
  | cons child rest ih =>
    obtain ⟨hchild, hrest⟩ := List.cons_subset.mp hcs
    obtain ⟨hedge, hedges⟩ := List.cons_subset.mp hnext
    have hmet : ∀ v ∈ node :: gray, st.colorOf v ≠ .white := by
      intro v hv
      rw [(hst.gray_iff v).mpr hv]
      decide
    rw [forChildren] at hrun
    split at hrun
    · rename_i hgray
      cases hrun
      have hlength := (List.subperm_of_subset hst.gray_nodup hst.gray_subset).length_le
      exact isCycle_reconstruct hthread hstack hst.gray_nodup (hlength.trans hsize) hedge
        ((hst.gray_iff child).mp hgray)
    · rename_i hwhite
      have hadopt := Continues.adopt hwhite node
      have hopen : Searched nodes next { st with parent := Dict.set st.parent child (some node) }
          black (node :: gray) := ⟨hst.black_iff, hst.gray_iff, hst.finished, hst.gray_nodup,
        hst.black_subset, hst.gray_subset⟩
      have hthread' := hadopt.threaded hthread hmet
      split at hrun
      · rename_i found st₁ hcall
        cases hrun
        refine hfound child _ _ black cycle hopen ?_ (hsize.trans hadopt.size) hchild hedge hwhite
          hbound hcall
        exact List.isChain_cons_cons.mpr ⟨Dict.get?_set_self _ _ _, hthread'⟩
      · rename_i st₁ hcall
        obtain ⟨black₁, hst₁, hsub₁, -⟩ := hsearch child _ st₁ black hopen hchild hwhite hbound hcall
        have hle : black.length ≤ black₁.length :=
          (List.subperm_of_subset hst.finished.nodup hsub₁).length_le
        have hcalled := hcontinues child { st with parent := Dict.set st.parent child (some node) }
        rw [hcall] at hcalled
        have hboth := hadopt.trans hcalled
        exact ih hrest hedges hst₁ (hboth.threaded hthread hmet) (hsize.trans hboth.size)
          (hbound.trans hle) hrun
    · exact ih hrest hedges hst hthread hsize hbound hrun

end

/-- A call of `dfs` that reports a path has found a cycle. -/
theorem dfs_reports {nodes : List String} {children : Dict String (List String)}
    (hclosed : ∀ v, Dict.getD children v [] ⊆ nodes) (fuel : Nat) {gray black cycle : List String}
    {node : String} {st st' : DfsState}
    (hst : Searched nodes (Dict.getD children · []) st black gray) (hnode : node ∈ nodes)
    (hwhite : st.colorOf node = .white) (hstack : Stacked (Dict.getD children · []) (node :: gray))
    (hthread : Threaded st (node :: gray)) (hsize : nodes.length ≤ st.parent.length)
    (hfuel : nodes.length < fuel + black.length + gray.length)
    (hrun : dfs children fuel node st = (some cycle, st')) :
    IsCycle (fun a b => b ∈ Dict.getD children a []) cycle := by
  induction fuel generalizing gray black node st st' cycle with
  | zero => cases hrun
  | succ fuel ih =>
    rw [dfs] at hrun
    split at hrun
    · rename_i found st₁ hloop
      cases hrun
      refine forChildren_reports black.length node ?_ (fun c s => continues_dfs children fuel c s) ?_
        hstack _ (hclosed node) (List.Subset.refl _) (hst.paint_gray hwhite hnode) hthread hsize
        le_rfl hloop
      · intro child s s' b hs hn hw hb hr
        exact dfs_spec hclosed fuel hs hn hw (by simp only [List.length_cons]; omega) hr
      · intro child s s' b c hs ht hz hn hedge hw hb hr
        exact ih hs hn hw (List.isChain_cons_cons.mpr ⟨hedge, hstack⟩) ht hz
          (by simp only [List.length_cons]; omega) hr
    · cases hrun

private theorem detectFrom_reports {nodes : List String} {children : Dict String (List String)}
    (hclosed : ∀ v, Dict.getD children v [] ⊆ nodes) (fuel : Nat) (hfuel : nodes.length < fuel)
    (rest : List String) (hrest : rest ⊆ nodes) {st : DfsState} {black : List String}
    (hst : Searched nodes (Dict.getD children · []) st black [])
    (hsize : nodes.length ≤ st.parent.length) {e : AppError}
    (hrun : detectFrom children fuel rest st = .error e) :
    ∃ cycle, e = cycleError cycle ∧ IsCycle (fun a b => b ∈ Dict.getD children a []) cycle := by
  induction rest generalizing st black with
  | nil => cases hrun
  | cons node rest ih =>
    obtain ⟨hnode, hrest'⟩ := List.cons_subset.mp hrest
    rw [detectFrom] at hrun
    split at hrun
    · rename_i hwhite
      split at hrun
      · rename_i cycle st₁ hcall
        cases hrun
        exact ⟨cycle, rfl, dfs_reports hclosed fuel hst hnode hwhite (.singleton _) (.singleton _)
          hsize (by simp only [List.length_nil]; omega) hcall⟩
      · rename_i st₁ hcall
        obtain ⟨black₁, hst₁, hsub₁, -⟩ := dfs_spec hclosed fuel hst hnode hwhite
          (by simp only [List.length_nil]; omega) hcall
        have hcontinues := continues_dfs children fuel node st
        rw [hcall] at hcontinues
        exact ih hrest' hst₁ (hsize.trans hcontinues.size) hrun
    · exact ih hrest' hst hsize hrun

/-- The edges of the search lead from a dependency to the nodes that name it. -/
theorem childrenOf_rel {graph : Graph} (hkeys : (Dict.keys graph).Nodup) :
    (fun d v => v ∈ Dict.getD (childrenOf graph) d []) = fun d v => d ∈ Dict.getD graph v [] := by
  funext d v
  apply propext
  rw [getD_childrenOf, ← List.count_pos_iff, count_dependents hkeys, List.count_pos_iff]

/-- Where `detect_cycles` raises, it reports a cycle. -/
theorem detectCycles_reports {graph : Graph} (hkeys : (Dict.keys graph).Nodup) {e : AppError}
    (h : detectCycles graph = .error e) : ∃ cycle, e = cycleError cycle ∧
      IsCycle (fun d v => d ∈ Dict.getD graph v []) cycle := by
  rw [← childrenOf_rel hkeys]
  exact detectFrom_reports (childrenOf_subset graph) (graph.length + 1) (by simp [Dict.keys])
    (Dict.keys graph) (List.Subset.refl _) (searched_start graph _) (by simp [Dict.keys]) h

/-- A graph without a cycle passes `detect_cycles`. -/
theorem detectCycles_of_acyclic {graph : Graph} (hkeys : (Dict.keys graph).Nodup)
    (hacyclic : ∀ v, ¬ Relation.TransGen (fun d v => d ∈ Dict.getD graph v []) v v) :
    detectCycles graph = .ok () := by
  cases hrun : detectCycles graph with
  | ok _ => rfl
  | error e =>
    obtain ⟨cycle, -, hcycle⟩ := detectCycles_reports hkeys hrun
    obtain ⟨v, hleads⟩ := hcycle.leads_back
    exact absurd hleads (hacyclic v)

end WorkflowEngine

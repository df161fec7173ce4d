import WorkflowEngine.EntryEffects
import WorkflowEngine.Lib.Ancestry
import WorkflowEngine.Replay

/-!
# The lineage of replays

`replayed_from` names the execution that a replay repeats, which may be a replay itself.  In
every state that the engine reaches these chains end in an execution that is no replay, and
the trigger data of a replay are those of this execution with one set of overrides: a chain
of replays is one replay.
-/

namespace WorkflowEngine

open Py Orm Interact Ancestry

/-! ## A chain of overrides -/

theorem replayTriggerData_of_ne_nil (original : Dict String Json) {overrides : Dict String Json}
    (hne : overrides ≠ []) : replayTriggerData original overrides =
      (dictOf (Dict.getD original "data" (.obj []))).map fun data => Dict.set original "data"
        (.obj (overrides.foldl (fun d item => Dict.set d item.1 item.2) data)) := by
  rw [replayTriggerData, if_neg (by simpa using hne)]
  cases dictOf (Dict.getD original "data" (.obj [])) <;> rfl

/-- Overrides over overrides are overrides.  The items of a request are written into a
dictionary, so that the keys are distinct. -/
theorem replayTriggerData_comp {original overrides data : Dict String Json}
    (hkeys : (Dict.keys overrides).Nodup) (h : replayTriggerData original overrides = .ok data)
    (overrides' : Dict String Json) :
    replayTriggerData original (overrides'.foldl (fun d item => Dict.set d item.1 item.2) overrides) =
      replayTriggerData data overrides' := by
  by_cases hempty' : overrides' = []
  · subst hempty'
    rw [List.foldl_nil, h]
    rfl
  have hne := Dict.foldl_set_ne_nil hempty' overrides
  by_cases hempty : overrides = []
  · subst hempty
    have hsame : original = data := by
      simpa [replayTriggerData] using h
    subst hsame
    rw [replayTriggerData_of_ne_nil _ hne, replayTriggerData_of_ne_nil _ hempty']
    simp only [Dict.foldl_set_foldl_set hkeys, List.foldl_nil]
  · rw [replayTriggerData_of_ne_nil _ hempty] at h
    rw [replayTriggerData_of_ne_nil _ hne, replayTriggerData_of_ne_nil _ hempty']
    cases hsection : dictOf (Dict.getD original "data" (.obj [])) with
    | error exc =>
      rw [hsection] at h
      cases h
    | ok data' =>
      rw [hsection] at h
      cases h
      have hread : ∀ fields, Dict.getD (Dict.set original "data" (.obj fields)) "data" (.obj []) =
          Json.obj fields := fun fields => by rw [Dict.getD_set, if_pos rfl]
      simp only [Except.map, hread, dictOf, Dict.foldl_set_foldl_set hkeys, Dict.set_set_self]

/-! ## Lineage -/

/-- `replayed_from` of an execution. -/
def replayedFromOf (v : View) (id : Uuid) : Option Uuid :=
  (v (.execution id)).bind fun e : Execution => e.replayedFrom

theorem replayedFromOf_eq_some {v : View} {id o : Uuid} :
    replayedFromOf v id = some o ↔
      ∃ e : Execution, v (.execution id) = some e ∧ e.replayedFrom = some o :=
  Option.bind_eq_some_iff

/-- `e` repeats `original`, with some overrides. -/
structure Repeats (original e : Execution) : Prop where
  workflowId : original.workflowId = e.workflowId
  tenantId : original.tenantId = e.tenantId
  triggerData : ∃ overrides : Dict String Json, (Dict.keys overrides).Nodup ∧
    replayTriggerData original.triggerData overrides = .ok e.triggerData

namespace Repeats

theorem refl (e : Execution) : Repeats e e := ⟨rfl, rfl, [], List.nodup_nil, rfl⟩

/-- A chain of replays is one replay. -/
theorem trans {root original e : Execution} (h : Repeats root original) (h' : Repeats original e) :
    Repeats root e := by
  refine ⟨h.workflowId.trans h'.workflowId, h.tenantId.trans h'.tenantId, ?_⟩
  rcases h.triggerData with ⟨overrides, hkeys, hdata⟩
  rcases h'.triggerData with ⟨overrides', -, hdata'⟩
  refine ⟨_, Dict.nodup_keys_foldl_set hkeys overrides', ?_⟩
  rw [replayTriggerData_comp hkeys hdata, hdata']

/-- What is assigned when an execution is rewritten is none of it. -/
theorem congr {v' : View} {original original' e e' : Execution} (h : Repeats original e)
    (horiginal : KeepsExecution v' original original') (he : KeepsExecution v' e e') :
    Repeats original' e' := by
  refine ⟨?_, ?_, ?_⟩
  · rw [horiginal.workflowId, he.workflowId, h.workflowId]
  · rw [horiginal.tenantId, he.tenantId, h.tenantId]
  · rw [horiginal.triggerData, he.triggerData]
    exact h.triggerData

end Repeats

/-- The chains of replays end, and every replay repeats the execution that it names. -/
structure Lineage (v : View) : Prop where
  grounded : Grounded (replayedFromOf v)
  repeats : ∀ id (e : Execution) o, v (.execution id) = some e → e.replayedFrom = some o →
    ∃ original, v (.execution o) = some original ∧ Repeats original e

namespace Lineage

variable {libs : Libraries} {settings : Settings} {copies : Uuid → Workflow → Prop} {v v' : View}

theorem empty : Lineage (Rows.row ∅) :=
  ⟨grounded_of_forall_none fun _ => rfl, fun _ _ _ hrow => by simp [Rows.row] at hrow⟩

/-- A replay that is still there names the same execution, which is still there. -/
theorem kept (h : Lineage v) (heffect : Effect libs settings copies v v') {id : Uuid} {e e' : Execution}
    (hrow : v (.execution id) = some e) (hrow' : v' (.execution id) = some e') {o : Uuid}
    (ho : e'.replayedFrom = some o) : e.replayedFrom = some o ∧
      ∃ original original', v (.execution o) = some original ∧ v' (.execution o) = some original' ∧
        Repeats original' e' := by
  have hkept := heffect.execution id e e' hrow hrow'
  have hsame : e.replayedFrom = some o := by
    rcases hkept.replayedFrom with hsame | ⟨hnone, -⟩
    · exact hsame.symm.trans ho
    · rw [hnone] at ho
      cases ho
  refine ⟨hsame, ?_⟩
  rcases h.repeats id e o hrow hsame with ⟨original, horiginal, hrepeats⟩
  cases hleft : v' (.execution o) with
  | none =>
    -- the replay would have gone with its original
    exact absurd (hkept.workflowId.trans hrepeats.workflowId.symm)
      ((heffect.gone o original horiginal hleft).1 id e' hrow')
  | some original' =>
    exact ⟨original, original', horiginal, rfl,
      hrepeats.congr (heffect.execution o original original' horiginal hleft) hkept⟩

/-- An execution that begins as a replay names one that was there and stays. -/
theorem begun (heffect : Effect libs settings copies v v') {id : Uuid} {e : Execution}
    (hnone : v (.execution id) = none) (hrow : v' (.execution id) = some e) {o : Uuid}
    (ho : e.replayedFrom = some o) : ∃ original original', v (.execution o) = some original ∧
      v' (.execution o) = some original' ∧ Repeats original' e := by
  rcases (heffect.begins id e hnone hrow).replayed o ho with
    ⟨original, overrides, horiginal, hworkflow, htenant, hdata⟩
  have hkeys : (Dict.keys ([] : Dict String Json)).Nodup := List.nodup_nil
  have hself : replayTriggerData original.triggerData [] = .ok original.triggerData := rfl
  have hrepeats : Repeats original e :=
    ⟨hworkflow, htenant, _, Dict.nodup_keys_foldl_set hkeys overrides,
      (replayTriggerData_comp hkeys hself overrides).trans hdata⟩
  refine ⟨original, ?_⟩
  cases hleft : v' (.execution o) with
  | none => exact absurd hworkflow.symm ((heffect.gone o original horiginal hleft).1 id e hrow)
  | some original' =>
    refine ⟨original', horiginal, rfl, ?_⟩
    exact hrepeats.congr (heffect.execution o original original' horiginal hleft)
      (KeepsExecution.refl v' e)

theorem effect (h : Lineage v) (heffect : Effect libs settings copies v v') : Lineage v' := by
  refine ⟨h.grounded.grown (fun id => v (.execution id) ≠ none) ?_ ?_, ?_⟩
  · intro o id hold ho
    rcases replayedFromOf_eq_some.mp ho with ⟨e', hrow', hreplayed⟩
    rcases Option.ne_none_iff_exists'.mp hold with ⟨e, hrow⟩
    rcases h.kept heffect hrow hrow' hreplayed with ⟨hsame, original, -, horiginal, -⟩
    exact ⟨replayedFromOf_eq_some.mpr ⟨e, hrow, hsame⟩, by simp [horiginal]⟩
  · intro o id hnew ho
    rcases replayedFromOf_eq_some.mp ho with ⟨e', hrow', hreplayed⟩
    rcases begun heffect (not_not.mp hnew) hrow' hreplayed with ⟨original, -, horiginal, -⟩
    simp [horiginal]
  · intro id e' o hrow' hreplayed
    cases hrow : v (.execution id) with
    | none =>
      rcases begun heffect hrow hrow' hreplayed with ⟨-, original', -, horiginal', hrepeats⟩
      exact ⟨original', horiginal', hrepeats⟩
    | some e =>
      rcases (h.kept heffect hrow hrow' hreplayed).2 with ⟨-, original', -, horiginal', hrepeats⟩
      exact ⟨original', horiginal', hrepeats⟩

/-- The root of an execution, and what it has of it. -/
theorem root (h : Lineage v) {id : Uuid} {e : Execution} (hrow : v (.execution id) = some e) :
    ∃ root original, Ancestor (replayedFromOf v) root id ∧ v (.execution root) = some original ∧
      original.replayedFrom = none ∧ Repeats original e := by
  rcases h.grounded.exists_root id with ⟨root, hancestor, hnone⟩
  have hrepeats : ∃ original, v (.execution root) = some original ∧ Repeats original e := by
    -- down the chain, from the root
    clear hnone
    induction hancestor generalizing e with
    | refl => exact ⟨e, hrow, Repeats.refl e⟩
    | tail _ hparent ih =>
      rcases replayedFromOf_eq_some.mp hparent with ⟨e', hrow', hreplayed⟩
      rw [hrow] at hrow'
      cases hrow'
      rcases h.repeats _ e _ hrow hreplayed with ⟨original, horiginal, hlast⟩
      rcases ih horiginal with ⟨first, hfirst, hchain⟩
      exact ⟨first, hfirst, hchain.trans hlast⟩
  rcases hrepeats with ⟨original, horiginal, hrepeats⟩
  refine ⟨root, original, hancestor, horiginal, ?_, hrepeats⟩
  rw [replayedFromOf, horiginal] at hnone
  exact hnone

end Lineage

/-- In every state that the engine reaches, the chain of replays of an execution ends in
exactly one execution that is no replay.  It is of the same workflow and tenant, and the
trigger data of the replay are its trigger data with one set of overrides. -/
theorem lineage_of_reachable {libs : Libraries} {settings : Settings} {wire : Wire} {s : Engine}
    (h : Engine.Reachable libs settings wire s) {id : Uuid} {e : Execution}
    (hrow : Rows.row s.rows (.execution id) = some e) :
    ∃! root, Ancestor (replayedFromOf (Rows.row s.rows)) root id ∧
      ∃ original : Execution, Rows.row s.rows (.execution root) = some original ∧
        original.replayedFrom = none ∧ Repeats original e := by
  have hlineage : Lineage (Rows.row s.rows) :=
    h.holds Lineage.empty fun _ _ _ _ heffect hold => hold.effect heffect
  rcases hlineage.root hrow with ⟨root, original, hancestor, horiginal, hnone, hrepeats⟩
  refine ⟨root, ⟨hancestor, original, horiginal, hnone, hrepeats⟩, ?_⟩
  rintro root' ⟨hancestor', original', horiginal', hnone', -⟩
  refine root_unique hancestor' ?_ hancestor ?_
  · rw [replayedFromOf, horiginal']
    exact hnone'
  · rw [replayedFromOf, horiginal]
    exact hnone

/-- The execution of the webhook and its replay have one root. -/
theorem lineage_replayedEngine : ∃ e : Execution,
    Rows.row Engine.replayedEngine.rows (.execution 11) = some e ∧
      ∃! root, Ancestor (replayedFromOf (Rows.row Engine.replayedEngine.rows)) root 11 ∧
        ∃ original : Execution,
          Rows.row Engine.replayedEngine.rows (.execution root) = some original ∧
            original.replayedFrom = none ∧ Repeats original e := by
  have hsome : (Rows.row Engine.replayedEngine.rows (.execution 11)).isSome = true := by
    decide +kernel
  rcases Option.isSome_iff_exists.mp hsome with ⟨e, hrow⟩
  exact ⟨e, hrow, lineage_of_reachable Engine.reachable_replayedEngine hrow⟩

end WorkflowEngine

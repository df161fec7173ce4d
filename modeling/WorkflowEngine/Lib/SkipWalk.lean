import Mathlib.Data.List.Induction
import WorkflowEngine.Lib.Dict

/-!
# Walks that skip nodes

A walk visits nodes one after the other.  A visited node completes with an
output, fails, or is skipped.  `drops v o` are the nodes that are to be skipped
once `v` has completed with output `o`.  A node that is dropped when the walk
reaches it is skipped, any other node runs, and the walk stops at the first
node that fails.

The log of a walk is a dictionary from the visited nodes to their endings, in
the order of the visits.  `Walk` says which logs are walks.  The results about
them hold for any nodes, outputs and `drops`.

`Walk.confluent` compares two walks in different orders.  Where a node is dropped
only by nodes below it, its output depends only on how the nodes below it ended,
and all of these are visited before it, the two walks give it the same ending.
-/

namespace SkipWalk

open Py

variable {V O : Type}

/-- How the visit of a node ends. -/
inductive Ending (O : Type) where
  | completed (output : O)
  | skipped
  | failed

/-- The visited nodes with their endings, in the order of the visits. -/
abbrev Log (V O : Type) := Dict V (Ending O)

/-- The nodes that the completed nodes of a log drop. -/
def dropped (drops : V → O → List V) (log : Log V O) : List V :=
  log.flatMap (fun entry =>
    match entry.2 with
    | .completed o => drops entry.1 o
    | _ => [])

/-- The outputs of the completed nodes, in the order of the visits. -/
def outputs (log : Log V O) : Dict V O :=
  log.filterMap (fun entry =>
    match entry.2 with
    | .completed o => some (entry.1, o)
    | _ => none)

/-- No node of the log has failed. -/
def Alive (log : Log V O) : Prop := ∀ entry ∈ log, entry.2 ≠ .failed

/-- The logs of walks. -/
inductive Walk (drops : V → O → List V) : Log V O → Prop where
  | nil : Walk drops []
  | skip {log : Log V O} {v : V} (walk : Walk drops log) (alive : Alive log)
      (hv : v ∈ dropped drops log) : Walk drops (log ++ [(v, .skipped)])
  | run {log : Log V O} {v : V} {ending : Ending O} (walk : Walk drops log) (alive : Alive log)
      (hv : v ∉ dropped drops log) (ran : ending ≠ .skipped) : Walk drops (log ++ [(v, ending)])

section

variable {drops : V → O → List V} {log : Log V O}

@[simp] theorem dropped_append (log' : Log V O) :
    dropped drops (log ++ log') = dropped drops log ++ dropped drops log' := by
  simp [dropped]

@[simp] theorem dropped_completed (v : V) (o : O) :
    dropped drops [(v, .completed o)] = drops v o := by
  simp [dropped]

@[simp] theorem dropped_skipped (v : V) : dropped drops [(v, .skipped)] = [] := by
  simp [dropped]

@[simp] theorem outputs_append (log' : Log V O) :
    outputs (log ++ log') = outputs log ++ outputs log' := by
  simp [outputs]

@[simp] theorem outputs_completed (v : V) (o : O) :
    outputs [(v, Ending.completed o)] = [(v, o)] := rfl

@[simp] theorem outputs_skipped (v : V) : outputs [(v, (Ending.skipped : Ending O))] = [] := rfl

@[simp] theorem outputs_failed (v : V) : outputs [(v, (Ending.failed : Ending O))] = [] := rfl

theorem alive_nil : Alive ([] : Log V O) := by
  intro entry h
  simp at h

theorem Alive.concat (h : Alive log) {v : V} {ending : Ending O} (hne : ending ≠ .failed) :
    Alive (log ++ [(v, ending)]) := by
  intro entry hentry
  rcases List.mem_append.mp hentry with hold | hnew
  · exact h entry hold
  · obtain rfl : entry = (v, ending) := by simpa using hnew
    exact hne

/-- A node is dropped by a completed node of the log. -/
theorem mem_dropped {v : V} :
    v ∈ dropped drops log ↔ ∃ c o, (c, Ending.completed o) ∈ log ∧ v ∈ drops c o := by
  constructor
  · intro h
    obtain ⟨⟨c, ending⟩, hmem, hv⟩ := List.mem_flatMap.mp h
    cases ending with
    | completed o => exact ⟨c, o, hmem, hv⟩
    | skipped => simp at hv
    | failed => simp at hv
  · rintro ⟨c, o, hmem, hv⟩
    exact List.mem_flatMap.mpr ⟨(c, .completed o), hmem, hv⟩

/-- The outputs are those of the completed nodes. -/
theorem mem_outputs {v : V} {o : O} : (v, o) ∈ outputs log ↔ (v, Ending.completed o) ∈ log := by
  constructor
  · intro h
    obtain ⟨⟨c, ending⟩, hmem, heq⟩ := List.mem_filterMap.mp h
    cases ending with
    | completed o' =>
      cases heq
      exact hmem
    | skipped => cases heq
    | failed => cases heq
  · intro h
    exact List.mem_filterMap.mpr ⟨_, h, rfl⟩

theorem keys_outputs_sublist (log : Log V O) :
    (Dict.keys (outputs log)).Sublist (Dict.keys log) := by
  induction log with
  | nil => exact List.Sublist.refl _
  | cons entry log ih =>
    obtain ⟨v, ending⟩ := entry
    cases ending with
    | completed o => exact ih.cons_cons v
    | skipped => exact ih.cons v
    | failed => exact ih.cons v

namespace Walk

/-- The front of a walk is a walk. -/
theorem of_append {log' : Log V O} (h : Walk drops (log ++ log')) : Walk drops log := by
  induction log' using List.reverseRecOn with
  | nil => simpa using h
  | append_singleton log' entry ih =>
    apply ih
    rw [← List.append_assoc] at h
    generalize hwhole : (log ++ log') ++ [entry] = whole at h
    cases h with
    | nil => simp at hwhole
    | skip walk _ _ => exact (List.append_inj_left' hwhole rfl) ▸ walk
    | run walk _ _ _ => exact (List.append_inj_left' hwhole rfl) ▸ walk

/-- Only the last node of a walk can have failed. -/
theorem alive_front {v : V} {ending : Ending O} (h : Walk drops (log ++ [(v, ending)])) :
    Alive log := by
  generalize hwhole : log ++ [(v, ending)] = whole at h
  cases h with
  | nil => simp at hwhole
  | skip _ alive _ => exact (List.append_inj_left' hwhole rfl) ▸ alive
  | run _ alive _ _ => exact (List.append_inj_left' hwhole rfl) ▸ alive

private theorem skipped_iff_last {v : V} {ending : Ending O}
    (h : Walk drops (log ++ [(v, ending)])) : ending = .skipped ↔ v ∈ dropped drops log := by
  generalize hwhole : log ++ [(v, ending)] = whole at h
  cases h with
  | nil => simp at hwhole
  | skip _ _ hv =>
    obtain ⟨hlog, hentry⟩ := List.append_inj' hwhole rfl
    simp only [List.cons.injEq, Prod.mk.injEq, and_true] at hentry
    obtain ⟨rfl, rfl⟩ := hentry
    simp [hlog, hv]
  | run _ _ hv ran =>
    obtain ⟨hlog, hentry⟩ := List.append_inj' hwhole rfl
    simp only [List.cons.injEq, Prod.mk.injEq, and_true] at hentry
    obtain ⟨rfl, rfl⟩ := hentry
    simp [hlog, hv, ran]

/-- A visited node is skipped exactly if a node that completed before it drops
it. -/
theorem skipped_iff {pre post : Log V O} {v : V} {ending : Ending O}
    (h : Walk drops (pre ++ (v, ending) :: post)) :
    ending = .skipped ↔ v ∈ dropped drops pre := by
  have hfront : Walk drops ((pre ++ [(v, ending)]) ++ post) := by simpa using h
  exact skipped_iff_last hfront.of_append

/-- The nodes below a visited node are visited before it. -/
def Climbs (below : V → V → Prop) (log : Log V O) : Prop :=
  ∀ front v ending post, log = front ++ (v, ending) :: post →
    ∀ d, below d v → d ∈ Dict.keys front

/-- Two walks that climb give a node that both visit the same ending, if it is dropped only
by nodes below it and its output is decided by their endings. -/
theorem confluent [DecidableEq V] {below : V → V → Prop} {log log' : Log V O}
    (h : Walk drops log) (h' : Walk drops log') (halive : Alive log) (halive' : Alive log')
    (hnodup : (Dict.keys log).Nodup) (hnodup' : (Dict.keys log').Nodup)
    (hclimbs : Climbs below log) (hclimbs' : Climbs below log')
    (hdrops : ∀ c o v, v ∈ Dict.keys log → v ∈ drops c o → below c v)
    (hdecided : ∀ front front' v o o' post post', log = front ++ (v, .completed o) :: post →
      log' = front' ++ (v, .completed o') :: post' →
      (∀ d, below d v → Dict.get? front d = Dict.get? front' d) → o = o')
    {v : V} {ending ending' : Ending O} (hmem : (v, ending) ∈ log) (hmem' : (v, ending') ∈ log') :
    ending = ending' := by
  obtain ⟨front, post, hlog⟩ := List.append_of_mem hmem
  -- by induction on the place of the node in the first walk
  induction hlength : front.length using Nat.strongRecOn generalizing
    v ending ending' front post with
  | ind n ih =>
  subst hlength
  obtain ⟨front', post', hlog'⟩ := List.append_of_mem hmem'
  have hsame : ∀ {d e e'}, (d, e) ∈ front → (d, e') ∈ front' → e = e' := by
    intro d e e' hd hd'
    obtain ⟨pre, mid, rfl⟩ := List.append_of_mem hd
    refine ih pre.length ?_ (hlog ▸ List.mem_append_left _ hd)
      (hlog' ▸ List.mem_append_left _ hd') pre (mid ++ (v, ending) :: post) ?_ rfl
    · rw [List.length_append, List.length_cons]
      omega
    · simp [hlog]
  have hfind : ∀ {d}, below d v → ∃ e, (d, e) ∈ front ∧ (d, e) ∈ front' := by
    intro d hd
    obtain ⟨e, he⟩ := Dict.mem_keys.mp (hclimbs front v ending post hlog d hd)
    obtain ⟨e', he'⟩ := Dict.mem_keys.mp (hclimbs' front' v ending' post' hlog' d hd)
    obtain rfl := hsame he he'
    exact ⟨e, he, he'⟩
  have hv : v ∈ Dict.keys log := Dict.mem_keys.mpr ⟨ending, hmem⟩
  have hwalk : Walk drops (front ++ (v, ending) :: post) := hlog ▸ h
  have hwalk' : Walk drops (front' ++ (v, ending') :: post') := hlog' ▸ h'
  have hskipped : ending = .skipped ↔ ending' = .skipped := by
    rw [hwalk.skipped_iff, hwalk'.skipped_iff, mem_dropped, mem_dropped]
    constructor
    · rintro ⟨c, o, hc, hdropped⟩
      obtain ⟨e, he, he'⟩ := hfind (hdrops c o v hv hdropped)
      obtain rfl := hsame hc he'
      exact ⟨c, o, he', hdropped⟩
    · rintro ⟨c, o, hc, hdropped⟩
      obtain ⟨e, he, he'⟩ := hfind (hdrops c o v hv hdropped)
      obtain rfl := hsame he hc
      exact ⟨c, o, he, hdropped⟩
  cases ending with
  | failed => exact absurd rfl (halive _ hmem)
  | skipped => exact (hskipped.mp rfl).symm
  | completed o =>
    cases ending' with
    | failed => exact absurd rfl (halive' _ hmem')
    | skipped => exact hskipped.mpr rfl
    | completed o' =>
      refine congrArg Ending.completed (hdecided front front' v o o' post post' hlog hlog' ?_)
      intro d hd
      obtain ⟨e, he, he'⟩ := hfind hd
      rw [Dict.get?_of_mem (Dict.nodup_keys_front hlog hnodup) he,
        Dict.get?_of_mem (Dict.nodup_keys_front hlog' hnodup') he']

end Walk

end

end SkipWalk

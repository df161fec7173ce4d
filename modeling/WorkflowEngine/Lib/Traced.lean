import WorkflowEngine.Lib.Always

/-!
# The trace of a run

`Script.run` says where a run ends.  `Script.trace` lists what is noted of the requests
on the way there, in their order: `note` says what is noted of a request that is sent in
a state, which may be nothing.

`Traced` is both at once, and its rules follow the structure of a script, so that the
trace of a program is put together from the traces of its parts.

`both` notes two kinds of things at once, in the order in which they happen.  A
part of a program of which one kind is known, and of the other that there is
none, has its trace from that (`Traced.inl`, `Traced.inr`).
-/

namespace Interact

namespace Script

variable {S : Signature} {ε ε' α β σ ν : Type}

/-- What is noted of the requests of a run, oldest first. -/
def trace (answer : (req : S.Req) → σ → S.Resp req × σ) (note : S.Req → σ → List ν) :
    Script S ε α → σ → List ν
  | done _, _ => []
  | call req next, s => note req s ++ (next (answer req s).1).trace answer note (answer req s).2

/-- The run of `m` from `s` ends with `result` in `s'`, and `notes` is what is noted of it. -/
structure Traced (answer : (req : S.Req) → σ → S.Resp req × σ) (note : S.Req → σ → List ν)
    (m : Script S ε α) (s : σ) (notes : List ν) (result : Except ε α) (s' : σ) : Prop where
  run : m.run answer s = (result, s')
  trace : m.trace answer note s = notes

namespace Traced

variable {answer : (req : S.Req) → σ → S.Resp req × σ} {note : S.Req → σ → List ν}
  {m : Script S ε α} {f : α → Script S ε β} {s s' s'' : σ} {notes notes' : List ν} {a : α}

theorem done (result : Except ε α) (s : σ) :
    Traced answer note (.done result : Script S ε α) s [] result s := ⟨rfl, rfl⟩

theorem pure (a : α) (s : σ) :
    Traced answer note (Pure.pure a : Script S ε α) s [] (.ok a) s := ⟨rfl, rfl⟩

/-- One request. -/
theorem send {req : S.Req} {resp : S.Resp req} (h : answer req s = (resp, s')) :
    Traced answer note (.send req : Script S ε (S.Resp req)) s (note req s) (.ok resp) s' := by
  refine ⟨?_, List.append_nil _⟩
  rw [run_send, h]

/-- What the first part of a sequence notes comes first. -/
theorem bind {result : Except ε β} (hm : Traced answer note m s notes (.ok a) s')
    (hf : Traced answer note (f a) s' notes' result s'') :
    Traced answer note (m >>= f) s (notes ++ notes') result s'' := by
  refine ⟨(run_bind_ok answer hm.run).trans hf.run, ?_⟩
  obtain ⟨hrun, rfl⟩ := hm
  show Script.trace answer note (m.bind f) s = _
  induction m generalizing s with
  | done result =>
    cases hrun
    exact hf.trace
  | call req next ih =>
    show note req s ++ _ = (note req s ++ _) ++ _
    rw [ih _ hrun, List.append_assoc]

/-- A first part of which nothing is noted. -/
theorem bind_silent {result : Except ε β} (hm : Traced answer note m s [] (.ok a) s')
    (hf : Traced answer note (f a) s' notes' result s'') :
    Traced answer note (m >>= f) s notes' result s'' := hm.bind hf

theorem bind_error {e : ε} (hm : Traced answer note m s notes (.error e) s') :
    Traced answer note (m >>= f) s notes (.error e) s' := by
  refine ⟨run_bind_error answer hm.run, ?_⟩
  obtain ⟨hrun, rfl⟩ := hm
  show Script.trace answer note (m.bind f) s = _
  induction m generalizing s with
  | done result =>
    cases hrun
    rfl
  | call req next ih => exact congrArg (note req s ++ ·) (ih _ hrun)

/-- A `try` block notes what its body notes. -/
theorem attempt {result : Except ε α} (hm : Traced answer note m s notes result s') :
    Traced answer note (.attempt m : Script S ε' (Except ε α)) s notes (.ok result) s' := by
  refine ⟨?_, ?_⟩
  · rw [run_attempt, hm.run]
  · rw [← hm.trace]
    clear hm
    induction m generalizing s with
    | done result => rfl
    | call req next ih => exact congrArg (note req s ++ ·) (ih _)

end Traced

/-! ## Two kinds of notes -/

section Both

variable {ν' : Type} {answer : (req : S.Req) → σ → S.Resp req × σ} {note : S.Req → σ → List ν}
  {note' : S.Req → σ → List ν'} {m : Script S ε α} {s s' : σ} {notes : List ν}
  {result : Except ε α}

/-- What is noted of a request in the one way, and then in the other. -/
def both (note : S.Req → σ → List ν) (note' : S.Req → σ → List ν') (req : S.Req) (s : σ) :
    List (ν ⊕ ν') := (note req s).map .inl ++ (note' req s).map .inr

/-- A run of which nothing is noted in the second way. -/
theorem Traced.inl (h : Traced answer note m s notes result s')
    (hsilent : Always answer (fun req s => note' req s = []) m s) :
    Traced answer (both note note') m s (notes.map .inl) result s' := by
  refine ⟨h.run, ?_⟩
  obtain ⟨-, rfl⟩ := h
  induction m generalizing s with
  | done result => rfl
  | call req next ih =>
    show both note note' req s ++ _ = (note req s ++ _).map _
    rw [ih _ hsilent.2, both, hsilent.1, List.map_nil, List.append_nil, List.map_append]

/-- A run of which nothing is noted in the first way. -/
theorem Traced.inr (h : Traced answer note m s [] result s') :
    Traced answer (both note note') m s ((m.trace answer note' s).map .inr) result s' := by
  refine ⟨h.run, ?_⟩
  obtain ⟨-, hsilent⟩ := h
  induction m generalizing s with
  | done result => rfl
  | call req next ih =>
    obtain ⟨hreq, hnext⟩ := List.append_eq_nil_iff.mp hsilent
    show both note note' req s ++ _ = (note' req s ++ _).map _
    rw [ih _ hnext, both, hreq, List.map_nil, List.nil_append, List.map_append]

/-- What is noted in the first way alone. -/
theorem Traced.left {notes : List (ν ⊕ ν')}
    (h : Traced answer (both note note') m s notes result s') :
    Traced answer note m s (notes.filterMap Sum.getLeft?) result s' := by
  refine ⟨h.run, ?_⟩
  obtain ⟨-, rfl⟩ := h
  have hinl : ∀ notes : List ν,
      (notes.map (Sum.inl : ν → ν ⊕ ν')).filterMap Sum.getLeft? = notes := by
    intro notes
    rw [List.filterMap_map]
    exact List.filterMap_some
  have hinr : ∀ notes : List ν',
      (notes.map (Sum.inr : ν' → ν ⊕ ν')).filterMap Sum.getLeft? = [] := by
    intro notes
    rw [List.filterMap_map]
    exact List.filterMap_eq_nil_iff.mpr fun _ _ => rfl
  induction m generalizing s with
  | done result => rfl
  | call req next ih =>
    show note req s ++ _ = (both note note' req s ++ _).filterMap _
    rw [both, List.filterMap_append, List.filterMap_append, hinl, hinr, List.append_nil, ih _]

end Both

end Script

end Interact

/-!
# Python dictionaries

A `dict` is modelled by its items in insertion order.  `set` keeps the
position of a key that is already present and appends a new key at the end,
as Python does.  Nothing forces the keys of a bare list of items to be
distinct; every operation reads the first item of a key and `set` never adds
a second one, so a dictionary that is built by `set` has distinct keys.
-/

namespace Py

/-- The items of a dictionary, in insertion order. -/
abbrev Dict (K V : Type) := List (K × V)

namespace Dict

variable {K V : Type} [DecidableEq K]

/-- `d.get(k)`. -/
def get? : Dict K V → K → Option V
  | [], _ => none
  | (k', v) :: d, k => if k' = k then some v else get? d k

/-- `d.get(k, default)`. -/
def getD (d : Dict K V) (k : K) (default : V) : V := (get? d k).getD default

/-- `d[k] = v`. -/
def set : Dict K V → K → V → Dict K V
  | [], k, v => [(k, v)]
  | (k', v') :: d, k, v => if k' = k then (k, v) :: d else (k', v') :: set d k v

/-- `d.setdefault(k, v)`, without its result. -/
def setdefault (d : Dict K V) (k : K) (v : V) : Dict K V :=
  match get? d k with
  | some _ => d
  | none => set d k v

/-- `list(d)`. -/
def keys (d : Dict K V) : List K := d.map Prod.fst

/-- `d.pop(k, None)`, without its result. -/
def erase (d : Dict K V) (k : K) : Dict K V := d.filter (fun item => item.1 ≠ k)

/-- `d.move_to_end(k)` of an `OrderedDict`. -/
def moveToEnd (d : Dict K V) (k : K) : Dict K V :=
  match get? d k with
  | some v => erase d k ++ [(k, v)]
  | none => d

/-- A dictionary comprehension: the items are set in turn, so that a later
value under a key replaces the earlier one. -/
def ofItems (items : List (K × V)) : Dict K V :=
  items.foldl (fun d item => set d item.1 item.2) []

@[simp] theorem get?_nil (k : K) : get? ([] : Dict K V) k = none := rfl

theorem get?_cons (k' : K) (v : V) (d : Dict K V) (k : K) :
    get? ((k', v) :: d) k = if k' = k then some v else get? d k := rfl

@[simp] theorem get?_set_self (d : Dict K V) (k : K) (v : V) : get? (set d k v) k = some v := by
  induction d with
  | nil => simp [set, get?]
  | cons item d ih =>
    obtain ⟨k', v'⟩ := item
    by_cases hk : k' = k
    · simp [set, get?, hk]
    · simp [set, get?, hk, ih]

theorem get?_set_ne (d : Dict K V) {k k' : K} (v : V) (h : k ≠ k') :
    get? (set d k v) k' = get? d k' := by
  induction d with
  | nil => simp [set, get?, h]
  | cons item d ih =>
    obtain ⟨k₀, v₀⟩ := item
    by_cases hk : k₀ = k
    · subst hk
      simp [set, get?, h]
    · simp [set, get?, hk, ih]

theorem get?_set (d : Dict K V) (k k' : K) (v : V) :
    get? (set d k v) k' = if k = k' then some v else get? d k' := by
  by_cases h : k = k'
  · subst h
    simp
  · simp [h, get?_set_ne d v h]

/-- A key that has no item is found by nothing. -/
theorem get?_eq_none_iff (d : Dict K V) (k : K) : get? d k = none ↔ k ∉ keys d := by
  induction d with
  | nil => simp [keys]
  | cons item d ih =>
    obtain ⟨k', v⟩ := item
    by_cases hk : k' = k
    · simp [get?, keys, hk]
    · have hk' : ¬ k = k' := fun h => hk h.symm
      simpa [get?, keys, hk, hk'] using ih

theorem getD_set (d : Dict K V) (k k' : K) (v default : V) :
    getD (set d k v) k' default = if k = k' then v else getD d k' default := by
  by_cases h : k = k'
  · simp [getD, h]
  · simp [getD, get?_set, h]

theorem getD_of_not_mem {d : Dict K V} {k : K} (h : k ∉ keys d) (default : V) :
    getD d k default = default := by
  simp [getD, (get?_eq_none_iff d k).mpr h]

/-- Items that all have the default as their value. -/
theorem getD_map_const {α : Type} (l : List α) (key : α → K) (k : K) (default : V) :
    getD (l.map (fun a => (key a, default))) k default = default := by
  induction l with
  | nil => rfl
  | cons a l ih =>
    by_cases ha : key a = k
    · simp [getD, get?, ha]
    · simpa [getD, get?, ha] using ih

/-- A key that is present keeps its position, and a new one goes to the end. -/
theorem keys_set (d : Dict K V) (k : K) (v : V) :
    keys (set d k v) = if k ∈ keys d then keys d else keys d ++ [k] := by
  induction d with
  | nil => simp [set, keys]
  | cons item d ih =>
    obtain ⟨k', v'⟩ := item
    by_cases hk : k' = k
    · simp [set, keys, hk]
    · have hk' : ¬ k = k' := fun h => hk h.symm
      simp only [keys] at ih
      by_cases hmem : k ∈ d.map Prod.fst
      · simp only [set, keys, hk, if_false, List.map_cons, ih, hmem, if_true, List.mem_cons,
          or_true]
      · simp only [set, keys, hk, if_false, List.map_cons, ih, hmem, List.mem_cons, hk', or_false,
          List.cons_append]

theorem length_le_length_set (d : Dict K V) (k : K) (v : V) : d.length ≤ (set d k v).length := by
  induction d with
  | nil => simp
  | cons item d ih =>
    rw [set]
    split
    · simp
    · simpa using ih

theorem nodup_keys_set {d : Dict K V} (hd : (keys d).Nodup) (k : K) (v : V) :
    (keys (set d k v)).Nodup := by
  rw [keys_set]
  split
  · exact hd
  · rename_i hk
    exact List.nodup_append.mpr ⟨hd, by simp, by
      rintro x hx y hy rfl
      exact hk (List.mem_singleton.mp hy ▸ hx)⟩

theorem getD_setdefault (d : Dict K V) (k k' : K) (v : V) :
    getD (setdefault d k v) k' v = getD d k' v := by
  unfold setdefault
  cases hget : get? d k with
  | some w => rfl
  | none =>
    rw [getD_set]
    split
    · rename_i heq
      simp [getD, ← heq, hget]
    · rfl

theorem keys_setdefault (d : Dict K V) (k : K) (v : V) :
    keys (setdefault d k v) = if k ∈ keys d then keys d else keys d ++ [k] := by
  unfold setdefault
  cases hget : get? d k with
  | some w =>
    have hmem : k ∈ keys d :=
      Decidable.not_not.mp (fun h => by simp [(get?_eq_none_iff d k).mpr h] at hget)
    simp [hmem]
  | none => exact keys_set d k v

/-- A new key goes to the end. -/
theorem set_of_not_mem (d : Dict K V) (k : K) (v : V) (h : k ∉ keys d) :
    set d k v = d ++ [(k, v)] := by
  induction d with
  | nil => rfl
  | cons item d ih =>
    obtain ⟨k', v'⟩ := item
    simp only [keys, List.map_cons, List.mem_cons, not_or] at h
    have hk : ¬ k' = k := fun e => h.1 e.symm
    simp [set, hk, ih h.2]

theorem get?_append (d d' : Dict K V) (k : K) :
    get? (d ++ d') k = (get? d k).orElse (fun _ => get? d' k) := by
  induction d with
  | nil => simp
  | cons item d ih =>
    obtain ⟨k', v⟩ := item
    by_cases hk : k' = k
    · simp [get?, hk]
    · simp [get?, hk, ih]

omit [DecidableEq K] in
@[simp] theorem keys_append (d d' : Dict K V) : keys (d ++ d') = keys d ++ keys d' := by
  simp [keys]

omit [DecidableEq K] in
/-- The front of a dictionary with distinct keys has distinct keys. -/
theorem nodup_keys_front {d front back : Dict K V} (h : d = front ++ back)
    (hd : (keys d).Nodup) : (keys front).Nodup := by
  rw [h, keys_append] at hd
  exact (List.nodup_append.mp hd).1

private theorem foldl_set_eq_append (items : List (K × V)) (d : Dict K V)
    (h : (keys (d ++ items)).Nodup) :
    items.foldl (fun d item => set d item.1 item.2) d = d ++ items := by
  induction items generalizing d with
  | nil => simp
  | cons item items ih =>
    obtain ⟨k, v⟩ := item
    have hk : k ∉ keys d := by
      rw [keys_append, List.nodup_append] at h
      exact fun hmem => h.2.2 k hmem k (by simp [keys]) rfl
    rw [List.foldl_cons, set_of_not_mem d k v hk, ih]
    · simp
    · simpa using h

/-- What is written over a dict is found, and elsewhere the dict is as it was. -/
theorem get?_foldl_set {items : List (K × V)} (h : (keys items).Nodup) (d : Dict K V) (k : K) :
    get? (items.foldl (fun d item => set d item.1 item.2) d) k =
      (get? items k).or (get? d k) := by
  induction items generalizing d with
  | nil => rfl
  | cons item items ih =>
    obtain ⟨hfresh, hnodup⟩ := List.nodup_cons.mp h
    rw [List.foldl_cons, ih hnodup, get?_set, get?_cons]
    by_cases hk : item.1 = k
    · subst hk
      rw [if_pos rfl, if_pos rfl, (get?_eq_none_iff items item.1).mpr hfresh]
      rfl
    · rw [if_neg hk, if_neg hk]

theorem set_set_self (d : Dict K V) (k : K) (v v' : V) :
    set (set d k v) k v' = set d k v' := by
  induction d with
  | nil => simp [set]
  | cons item d ih =>
    obtain ⟨k', w⟩ := item
    by_cases hk : k' = k
    · simp [set, hk]
    · simp [set, hk, ih]

/-- A key that is present keeps its position, so that another key may be set before or after. -/
theorem set_comm {d : Dict K V} {k k' : K} (hmem : k ∈ keys d) (hne : k' ≠ k) (v v' : V) :
    set (set d k' v') k v = set (set d k v) k' v' := by
  induction d with
  | nil => simp [keys] at hmem
  | cons item d ih =>
    obtain ⟨k₀, w⟩ := item
    by_cases hk : k₀ = k
    · subst hk
      simp [set, Ne.symm hne]
    · have hmem' : k ∈ keys d := by
        simp only [keys, List.map_cons, List.mem_cons] at hmem
        exact hmem.resolve_left fun heq => hk heq.symm
      by_cases hk' : k₀ = k'
      · subst hk'
        simp [set, hne]
      · simp [set, hk, hk', ih hmem']

/-- A key that is present and not written over may be set before the others are. -/
private theorem set_foldl_set {items : List (K × V)} {d : Dict K V} {k : K} (hmem : k ∈ keys d)
    (hfresh : k ∉ keys items) (v : V) :
    set (items.foldl (fun d item => set d item.1 item.2) d) k v =
      items.foldl (fun d item => set d item.1 item.2) (set d k v) := by
  induction items generalizing d with
  | nil => rfl
  | cons item items ih =>
    simp only [keys, List.map_cons, List.mem_cons, not_or] at hfresh
    have hmem' : k ∈ keys (set d item.1 item.2) := by
      rw [keys_set]
      split
      · exact hmem
      · exact List.mem_append_left _ hmem
    rw [List.foldl_cons, List.foldl_cons, ih hmem' hfresh.2, set_comm hmem (Ne.symm hfresh.1)]

/-- To write over with one more item is to set it last. -/
theorem foldl_set_set {items : List (K × V)} (h : (keys items).Nodup) (d : Dict K V) (k : K) (v : V) :
    (set items k v).foldl (fun d item => set d item.1 item.2) d =
      set (items.foldl (fun d item => set d item.1 item.2) d) k v := by
  induction items generalizing d with
  | nil => rfl
  | cons item items ih =>
    obtain ⟨k', w⟩ := item
    obtain ⟨hfresh, hnodup⟩ := List.nodup_cons.mp h
    by_cases hk : k' = k
    · subst hk
      have hmem : k' ∈ keys (set d k' w) :=
        Decidable.not_not.mp fun hnot => by simpa using (get?_eq_none_iff _ _).mpr hnot
      have hself : set ((k', w) :: items) k' v = (k', v) :: items := by simp [set]
      rw [hself, List.foldl_cons, List.foldl_cons, set_foldl_set hmem hfresh, set_set_self]
    · have hother : set ((k', w) :: items) k v = (k', w) :: set items k v := by simp [set, hk]
      rw [hother, List.foldl_cons, List.foldl_cons, ih hnodup]

/-- `d.update(a.update(b))` is `d.update(a)` and then `d.update(b)`. -/
theorem foldl_set_foldl_set {items : List (K × V)} (h : (keys items).Nodup) (items' : List (K × V))
    (d : Dict K V) :
    (items'.foldl (fun d item => set d item.1 item.2) items).foldl
        (fun d item => set d item.1 item.2) d =
      items'.foldl (fun d item => set d item.1 item.2)
        (items.foldl (fun d item => set d item.1 item.2) d) := by
  induction items' generalizing items with
  | nil => rfl
  | cons item items' ih =>
    rw [List.foldl_cons, List.foldl_cons, ih (nodup_keys_set h _ _), foldl_set_set h]

theorem set_ne_nil (d : Dict K V) (k : K) (v : V) : set d k v ≠ [] := by
  cases d with
  | nil => simp [set]
  | cons item d =>
    rw [set]
    split <;> simp

theorem foldl_set_ne_nil {items : List (K × V)} (h : items ≠ []) (d : Dict K V) :
    items.foldl (fun d item => set d item.1 item.2) d ≠ [] := by
  induction items generalizing d with
  | nil => exact absurd rfl h
  | cons item items ih =>
    by_cases hitems : items = []
    · subst hitems
      exact set_ne_nil d item.1 item.2
    · exact ih hitems _

theorem nodup_keys_foldl_set {d : Dict K V} (hd : (keys d).Nodup) (items : List (K × V)) :
    (keys (items.foldl (fun d item => set d item.1 item.2) d)).Nodup := by
  induction items generalizing d with
  | nil => exact hd
  | cons item items ih => exact ih (nodup_keys_set hd _ _)

/-- Items with distinct keys are a dictionary as they stand. -/
theorem ofItems_eq_self {items : List (K × V)} (h : (keys items).Nodup) :
    ofItems items = items := by
  have hfold := foldl_set_eq_append items [] (by simpa using h)
  simpa [ofItems] using hfold

/-- An item of a dictionary with distinct keys is what its key finds. -/
theorem get?_of_mem {d : Dict K V} (hd : (keys d).Nodup) {k : K} {v : V} (h : (k, v) ∈ d) :
    get? d k = some v := by
  induction d with
  | nil => simp at h
  | cons item d ih =>
    obtain ⟨k', v'⟩ := item
    simp only [keys, List.map_cons, List.nodup_cons] at hd
    rcases List.mem_cons.mp h with he | ht
    · cases he
      simp [get?]
    · have hk : k' ≠ k := by
        rintro rfl
        exact hd.1 (List.mem_map.mpr ⟨_, ht, rfl⟩)
      simpa [get?, hk] using ih hd.2 ht

theorem mem_of_get? {d : Dict K V} {k : K} {v : V} (h : get? d k = some v) : (k, v) ∈ d := by
  induction d with
  | nil => cases h
  | cons item d ih =>
    obtain ⟨k', v'⟩ := item
    rw [get?_cons] at h
    split at h
    · rename_i hk
      cases h
      subst hk
      exact List.mem_cons_self
    · exact List.mem_cons_of_mem _ (ih h)

/-- A dictionary with distinct keys has one value under a key. -/
theorem value_unique {d : Dict K V} (hd : (keys d).Nodup) {k : K} {v v' : V} (h : (k, v) ∈ d)
    (h' : (k, v') ∈ d) : v = v' := by
  have hget := get?_of_mem hd h
  rw [get?_of_mem hd h'] at hget
  exact (Option.some.inj hget).symm

omit [DecidableEq K] in
theorem mem_keys {d : Dict K V} {k : K} : k ∈ keys d ↔ ∃ v, (k, v) ∈ d := by
  simp [keys]

omit [DecidableEq K] in
/-- Dictionaries with the same keys and the same value under each key have the same items. -/
theorem perm_of_values_eq {d d' : Dict K V} (hd : (keys d).Nodup) (hd' : (keys d').Nodup)
    (hkeys : ∀ k, k ∈ keys d ↔ k ∈ keys d')
    (h : ∀ k v v', (k, v) ∈ d → (k, v') ∈ d' → v = v') : d.Perm d' := by
  have hnodup : ∀ {l : Dict K V}, (keys l).Nodup → l.Nodup :=
    List.Pairwise.of_map Prod.fst (fun _ _ hne heq => hne (congrArg Prod.fst heq))
  refine (List.perm_ext_iff_of_nodup (hnodup hd) (hnodup hd')).mpr fun (k, v) => ?_
  constructor
  · intro hv
    obtain ⟨v', hv'⟩ := mem_keys.mp ((hkeys k).mp (mem_keys.mpr ⟨v, hv⟩))
    rwa [h k v v' hv hv']
  · intro hv
    obtain ⟨v', hv'⟩ := mem_keys.mp ((hkeys k).mpr (mem_keys.mpr ⟨v, hv⟩))
    rwa [← h k v' v hv' hv]

/-- The order of the items says nothing about what is under a key. -/
theorem get?_perm {d d' : Dict K V} (hd : (keys d).Nodup) (h : d.Perm d') (k : K) :
    get? d k = get? d' k := by
  have hkeys : (keys d).Perm (keys d') := h.map Prod.fst
  cases hget : get? d k with
  | none =>
    rw [get?_eq_none_iff, hkeys.mem_iff] at hget
    exact ((get?_eq_none_iff d' k).mpr hget).symm
  | some v =>
    have hmem : (k, v) ∈ d' := h.mem_iff.mp (mem_of_get? hget)
    exact (get?_of_mem (hkeys.nodup_iff.mp hd) hmem).symm

theorem mem_erase {d : Dict K V} {k k' : K} {v : V} :
    (k', v) ∈ erase d k ↔ (k', v) ∈ d ∧ k' ≠ k := by
  simp [erase, List.mem_filter]

theorem keys_erase_sublist (d : Dict K V) (k : K) : (keys (erase d k)).Sublist (keys d) :=
  List.filter_sublist.map Prod.fst

theorem not_mem_keys_erase (d : Dict K V) (k : K) : k ∉ keys (erase d k) := by
  intro h
  rcases mem_keys.mp h with ⟨v, hv⟩
  exact (mem_erase.mp hv).2 rfl

theorem length_erase_lt {d : Dict K V} {k : K} (h : k ∈ keys d) :
    (erase d k).length < d.length := by
  rcases mem_keys.mp h with ⟨v, hv⟩
  exact List.length_filter_lt_length_iff_exists.mpr ⟨_, hv, by simp⟩

/-- Moving an item does not change which items there are. -/
theorem mem_moveToEnd {d : Dict K V} (hd : (keys d).Nodup) {k k' : K} {v : V} :
    (k', v) ∈ moveToEnd d k ↔ (k', v) ∈ d := by
  unfold moveToEnd
  cases hget : get? d k with
  | none => exact Iff.rfl
  | some w =>
    have hw := mem_of_get? hget
    rw [List.mem_append, mem_erase, List.mem_singleton, Prod.mk.injEq]
    constructor
    · rintro (⟨h, -⟩ | ⟨rfl, rfl⟩)
      · exact h
      · exact hw
    · intro h
      by_cases hk : k' = k
      · subst hk
        exact .inr ⟨rfl, value_unique hd h hw⟩
      · exact .inl ⟨h, hk⟩

theorem nodup_keys_moveToEnd {d : Dict K V} (hd : (keys d).Nodup) (k : K) :
    (keys (moveToEnd d k)).Nodup := by
  unfold moveToEnd
  split
  · rw [keys_append]
    refine List.nodup_append.mpr ⟨(keys_erase_sublist d k).nodup hd, by simp [keys], ?_⟩
    rintro x hx y hy rfl
    obtain rfl : x = k := by simpa [keys] using hy
    exact not_mem_keys_erase d x hx
  · exact hd

theorem length_moveToEnd_le (d : Dict K V) (k : K) : (moveToEnd d k).length ≤ d.length := by
  unfold moveToEnd
  split
  · rename_i v hget
    have hlt := length_erase_lt (mem_keys.mpr ⟨v, mem_of_get? hget⟩)
    rw [List.length_append, List.length_singleton]
    omega
  · exact Nat.le_refl _

/-- The last item stays where it is. -/
theorem moveToEnd_concat {d : Dict K V} {k : K} (hk : k ∉ keys d) (v : V) :
    moveToEnd (d ++ [(k, v)]) k = d ++ [(k, v)] := by
  have hnone := (get?_eq_none_iff d k).mpr hk
  have herase : erase d k = d := by
    refine List.filter_eq_self.mpr fun item hitem => decide_eq_true ?_
    rintro rfl
    exact hk (mem_keys.mpr ⟨item.2, hitem⟩)
  have hconcat : erase (d ++ [(k, v)]) k = d := by
    rw [erase, List.filter_append]
    show erase d k ++ erase [(k, v)] k = d
    rw [herase]
    simp [erase]
  unfold moveToEnd
  rw [get?_append, hnone]
  simp only [get?, Option.orElse_none, if_true, hconcat]

theorem mem_set {d : Dict K V} (hd : (keys d).Nodup) {k k' : K} {v v' : V} :
    (k', v') ∈ set d k v ↔ k' = k ∧ v' = v ∨ k' ≠ k ∧ (k', v') ∈ d := by
  have hset := nodup_keys_set hd k v
  constructor
  · intro h
    have hget := get?_of_mem hset h
    rw [get?_set] at hget
    split at hget
    · rename_i hk
      exact .inl ⟨hk.symm, (Option.some.inj hget).symm⟩
    · rename_i hk
      exact .inr ⟨Ne.symm hk, mem_of_get? hget⟩
  · rintro (⟨rfl, rfl⟩ | ⟨hk, h⟩)
    · exact mem_of_get? (get?_set_self d k' v')
    · refine mem_of_get? ?_
      rw [get?_set_ne d v hk.symm]
      exact get?_of_mem hd h

end Dict

end Py

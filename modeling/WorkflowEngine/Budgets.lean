import WorkflowEngine.RateLimit

/-!
# Budgets

The counters of the rate limit are kept under keys that are put together from texts of the
request.  No two requests share a key unless they have the same client, method and path, so
every client has a budget of its own on every route: what others request, and what fails in
their requests, shows in none of its responses.
-/

namespace WorkflowEngine.RateLimit

open Py

/-! ## The commands for one key -/

section

variable {store store' : Redis.Store String} {key key' : String}

theorem askTtl_congr (h : store key = store' key) (reply : Reply) (now : Redis.Time)
    (current : Nat) :
    (askTtl reply store now key current).1 = (askTtl reply store' now key current).1 := by
  unfold askTtl
  split
  · rfl
  · rw [Redis.Store.ttl_congr h now]

/-- The outcome depends on the record under the key only. -/
theorem countRequest_congr (faults : Faults) (now : Redis.Time) (h : store key = store' key) :
    (countRequest faults store now key).1 = (countRequest faults store' now key).1 ∧
      (countRequest faults store now key).2 key = (countRequest faults store' now key).2 key := by
  obtain ⟨hcurrent, hrecord⟩ := Redis.Store.incr_congr h now
  unfold countRequest
  generalize store.incr now key = counted at hcurrent hrecord ⊢
  generalize store'.incr now key = counted' at hcurrent hrecord ⊢
  obtain ⟨current, store₁⟩ := counted
  obtain ⟨current', store₁'⟩ := counted'
  obtain rfl : current = current' := hcurrent
  dsimp only at hrecord ⊢
  have hcounted : (if faults.incr.carried = true then store₁ else store) key =
      (if faults.incr.carried = true then store₁' else store') key := by
    split
    · exact hrecord
    · exact h
  generalize (if faults.incr.carried = true then store₁ else store) = store₂ at hcounted ⊢
  generalize (if faults.incr.carried = true then store₁' else store') = store₂' at hcounted ⊢
  split
  · exact ⟨rfl, hcounted⟩
  · have hexpire : (if current = 1 ∧ faults.expire.carried = true then
          store₂.expire now key windowSeconds else store₂) key =
        (if current = 1 ∧ faults.expire.carried = true then
          store₂'.expire now key windowSeconds else store₂') key := by
      split
      · exact Redis.Store.expire_congr hcounted now windowSeconds
      · exact hcounted
    split
    · exact ⟨rfl, hexpire⟩
    · rw [askTtl_store, askTtl_store]
      exact ⟨askTtl_congr hexpire _ now current, hexpire⟩

/-- The record under another key stays. -/
theorem countRequest_ne (faults : Faults) (now : Redis.Time) (h : key' ≠ key) :
    (countRequest faults store now key).2 key' = store key' := by
  have hincr : (store.incr now key).2 key' = store key' := Redis.Store.incr_ne now h
  unfold countRequest
  generalize store.incr now key = counted at hincr ⊢
  obtain ⟨current, store₁⟩ := counted
  dsimp only at hincr ⊢
  have hcounted : (if faults.incr.carried = true then store₁ else store) key' = store key' := by
    split
    · exact hincr
    · rfl
  generalize (if faults.incr.carried = true then store₁ else store) = store₂ at hcounted ⊢
  split
  · exact hcounted
  · have hexpire : (if current = 1 ∧ faults.expire.carried = true then
        store₂.expire now key windowSeconds else store₂) key' = store₂ key' := by
      split
      · exact Redis.Store.expire_ne now windowSeconds h
      · rfl
    split
    · exact hexpire.trans hcounted
    · rw [askTtl_store]
      exact hexpire.trans hcounted

end

/-! ## The requests on one counter -/

/-- Whether the request is one of a client on a method and a path. -/
def Arrival.isOf (client method path : String) (arrival : Arrival) : Bool :=
  arrival.request.client = client && arrival.request.method = method &&
    arrival.request.path = path

theorem Arrival.isOf_iff {client method path : String} {arrival : Arrival} :
    arrival.isOf client method path = true ↔ arrival.request.client = client ∧
      arrival.request.method = method ∧ arrival.request.path = path := by
  simp [isOf, and_assoc]

/-- All of them have the same key. -/
theorem Arrival.redisKey_of_isOf {client method path : String} {arrival : Arrival}
    (h : arrival.isOf client method path = true) :
    arrival.request.redisKey = "ratelimit:" ++ client ++ ":" ++ method ++ ":" ++ path := by
  obtain ⟨hclient, hmethod, hpath⟩ := isOf_iff.mp h
  rw [Request.redisKey, hclient, hmethod, hpath]

/-- Nobody else has it. -/
theorem Arrival.redisKey_ne {client method path : String} {arrival mine : Arrival}
    (hmine : mine.isOf client method path = true) (h : ¬ arrival.isOf client method path = true) :
    mine.request.redisKey ≠ arrival.request.redisKey := by
  intro hkey
  obtain ⟨hclient, hmethod, hpath⟩ := Request.redisKey_inj hkey
  obtain ⟨hclient', hmethod', hpath'⟩ := isOf_iff.mp hmine
  exact h (isOf_iff.mpr ⟨hclient ▸ hclient', hmethod ▸ hmethod', hpath ▸ hpath'⟩)

/-- The response to a request, and the counter after it, are those that its counter gives. -/
theorem dispatch_congr {arrival : Arrival} {store store' : Redis.Store String}
    (h : store arrival.request.redisKey = store' arrival.request.redisKey) :
    (dispatch arrival store).1 = (dispatch arrival store').1 ∧
      (dispatch arrival store).2 arrival.request.redisKey =
        (dispatch arrival store').2 arrival.request.redisKey := by
  obtain ⟨hcount, hstore⟩ := countRequest_congr arrival.faults arrival.time h
  refine ⟨?_, ?_⟩
  · unfold dispatch
    generalize countRequest arrival.faults store arrival.time arrival.request.redisKey = counted
      at hcount ⊢
    generalize countRequest arrival.faults store' arrival.time arrival.request.redisKey = counted'
      at hcount ⊢
    obtain ⟨outcome, store₁⟩ := counted
    obtain ⟨outcome', store₁'⟩ := counted'
    obtain rfl : outcome = outcome' := hcount
    cases outcome with
    | none => rfl
    | some counted =>
      dsimp only
      split
      · rfl
      · rfl
  · rw [dispatch_store, dispatch_store]
    exact hstore

/-- Two servers that show the same to the requests of one client on one method and path: the
responses so far, and the record under their key. -/
structure SameBudget (client method path : String) (s s' : Served) : Prop where
  log : s.log.filter (fun x => x.1.isOf client method path) = s'.log
  record : ∀ mine : Arrival, mine.isOf client method path = true →
    s.store mine.request.redisKey = s'.store mine.request.redisKey

/-- A request of the client reaches both. -/
theorem SameBudget.next {client method path : String} {s s' : Served} {arrival : Arrival}
    (h : SameBudget client method path s s') (hmine : arrival.isOf client method path = true) :
    SameBudget client method path (s.next arrival) (s'.next arrival) := by
  obtain ⟨hverdict, hrecord⟩ := dispatch_congr (h.record arrival hmine)
  refine ⟨?_, fun mine hof => ?_⟩
  · rw [Served.log_next, List.filter_cons, if_pos hmine, Served.log_next, h.log, hverdict]
  · have hkey : mine.request.redisKey = arrival.request.redisKey := by
      rw [Arrival.redisKey_of_isOf hof, Arrival.redisKey_of_isOf hmine]
    rw [Served.store_next, Served.store_next, hkey]
    exact hrecord

/-- Another request reaches the one only. -/
theorem SameBudget.other {client method path : String} {s s' : Served} {arrival : Arrival}
    (h : SameBudget client method path s s') (hother : ¬ arrival.isOf client method path = true) :
    SameBudget client method path (s.next arrival) s' := by
  refine ⟨?_, fun mine hof => ?_⟩
  · rw [Served.log_next, List.filter_cons, if_neg hother, h.log]
  · rw [Served.store_next, dispatch_store,
      countRequest_ne _ _ (Arrival.redisKey_ne hof hother)]
    exact h.record mine hof

theorem SameBudget.foldl {client method path : String} (arrivals : List Arrival) {s s' : Served}
    (h : SameBudget client method path s s') :
    SameBudget client method path (arrivals.foldl Served.next s)
      ((arrivals.filter (Arrival.isOf client method path)).foldl Served.next s') := by
  induction arrivals generalizing s s' with
  | nil => exact h
  | cons arrival arrivals ih =>
    by_cases hmine : arrival.isOf client method path = true
    · rw [List.filter_cons_of_pos hmine]
      exact ih (h.next hmine)
    · rw [List.filter_cons_of_neg hmine]
      exact ih (h.other hmine)

/-- In any run, whatever fails in it, the responses to the requests of one client on one method
and path are those that it gets when it is the only one there: every number in the headers, and
every request that is turned away. -/
theorem budget_of_run (arrivals : List Arrival) (client method path : String) :
    (arrivals.foldl Served.next .fresh).log.filter (fun x => x.1.isOf client method path) =
      ((arrivals.filter (Arrival.isOf client method path)).foldl Served.next .fresh).log := by
  have hfresh : SameBudget client method path .fresh .fresh := ⟨rfl, fun _ _ => rfl⟩
  exact (hfresh.foldl arrivals).log

end WorkflowEngine.RateLimit

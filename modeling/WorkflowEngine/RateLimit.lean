import Mathlib.Algebra.Order.Group.Nat
import WorkflowEngine.Lib.Json
import WorkflowEngine.Lib.Redis
import WorkflowEngine.Lib.Window

/-!
# The rate limit

The middleware of `src/api/middleware/rate_limit.py`.  It counts the requests of
a client on a method and a path under one key, which expires `WINDOW_SECONDS`
after the first of them.  A run is any sequence of requests, with the commands
that fail in each of them.

* `expires_when`: a counter has an expiry, as long as `EXPIRE` is carried out
  where a counter is created.
* `rateLimit_holds_when`: the limit of a rule holds over every interval, as long
  as no new counter is started beside admissions that are recent.
-/

namespace WorkflowEngine.RateLimit

open Py

/-! ## The limits -/

/-- An entry of `ROUTE_LIMITS`. -/
structure Rule where
  routeMethod : String
  routePrefix : String
  limit : Nat
  deriving DecidableEq

/-- `ROUTE_LIMITS`. -/
def routeLimits : List Rule :=
  [⟨"POST", "/api/tenants/register", 5⟩,
    ⟨"POST", "/api/workflows", 20⟩,
    ⟨"PUT", "/api/workflows/", 20⟩,
    ⟨"DELETE", "/api/workflows/", 20⟩,
    ⟨"POST", "/api/executions/", 20⟩,
    ⟨"POST", "/api/workflows/", 30⟩,
    ⟨"GET", "/api/executions/", 100⟩,
    ⟨"GET", "/api/metrics/", 30⟩,
    ⟨"GET", "/api/", 100⟩,
    ⟨"POST", "/api/", 100⟩,
    ⟨"POST", "/webhooks/", 100⟩]

/-- `DEFAULT_LIMIT`. -/
def defaultLimit : Nat := 100

/-- `WINDOW_SECONDS`. -/
def windowSeconds : Nat := 60

/-- The window on the clock of the server. -/
def window : Redis.Time := 1000 * windowSeconds

/-- The first rule that applies. -/
def matchedRule (method path : String) : Option Rule :=
  routeLimits.find? (fun rule =>
    method = rule.routeMethod && rule.routePrefix.toList.isPrefixOf path.toList)

/-- `_get_rate_limit`. -/
def getRateLimit (method path : String) : Nat :=
  match matchedRule method path with
  | some rule => rule.limit
  | none => defaultLimit

theorem limit_pos : ∀ rule ∈ routeLimits, 1 ≤ rule.limit := by decide

theorem getRateLimit_pos (method path : String) : 1 ≤ getRateLimit method path := by
  unfold getRateLimit
  cases hrule : matchedRule method path with
  | none => decide
  | some rule => exact limit_pos rule (List.mem_of_find?_eq_some hrule)

/-! ## The requests -/

/-- What the middleware reads of a request.  The client is an address or
"unknown", the method is a token of HTTP, and the path of a URL with a host is
empty or starts with a slash. -/
structure Request where
  client : String
  method : String
  path : String
  client_plain : '/' ∉ client.toList
  method_plain : '/' ∉ method.toList ∧ ':' ∉ method.toList
  path_absolute : ∀ c ∈ path.toList.head?, c = '/'

namespace Request

/-- The key of the counter. -/
def redisKey (request : Request) : String :=
  "ratelimit:" ++ request.client ++ ":" ++ request.method ++ ":" ++ request.path

/-- The rule that the limit of the request is taken from. -/
def rule (request : Request) : Option Rule := matchedRule request.method request.path

/-- The limit of the request. -/
def limit (request : Request) : Nat := getRateLimit request.method request.path

/-- What comes before a separator is determined by the whole. -/
theorem split_at {sep : Char} {front front' rest rest' : List Char} (hfront : sep ∉ front)
    (hfront' : sep ∉ front') (hrest : ∀ c ∈ rest.head?, c = sep)
    (hrest' : ∀ c ∈ rest'.head?, c = sep) (h : front ++ rest = front' ++ rest') :
    front = front' ∧ rest = rest' := by
  have htake : ∀ front rest : List Char, sep ∉ front → (∀ c ∈ rest.head?, c = sep) →
      (front ++ rest).takeWhile (fun c => c ≠ sep) = front := by
    intro front rest hfront hrest
    have hkept : ∀ c ∈ front, decide (c ≠ sep) = true := by
      intro c hc
      exact decide_eq_true fun heq => hfront (heq ▸ hc)
    rw [List.takeWhile_append_of_pos hkept]
    cases rest with
    | nil => simp
    | cons c rest => simp [hrest c rfl]
  have heq : front = front' := by
    rw [← htake front rest hfront hrest, ← htake front' rest' hfront' hrest', h]
  subst heq
  exact ⟨rfl, List.append_cancel_left h⟩

/-- Different requests have different keys. -/
theorem redisKey_inj {request request' : Request} (h : request.redisKey = request'.redisKey) :
    request.client = request'.client ∧ request.method = request'.method ∧
      request.path = request'.path := by
  have hlists := congrArg String.toList h
  simp only [redisKey, String.toList_append] at hlists
  have hplain : ∀ r : Request, '/' ∉ "ratelimit:".toList ++ r.client.toList ++ ":".toList ++
      r.method.toList ++ ":".toList := by
    intro r
    have hliteral : '/' ∉ "ratelimit:".toList ∧ '/' ∉ ":".toList := by decide
    simp only [List.mem_append, not_or]
    exact ⟨⟨⟨⟨hliteral.1, r.client_plain⟩, hliteral.2⟩, r.method_plain.1⟩, hliteral.2⟩
  obtain ⟨hfront, hpath⟩ := split_at (hplain request) (hplain request')
    request.path_absolute request'.path_absolute hlists
  -- A client may have colons in it, a method has none: so from the end.
  have hreverse := congrArg List.reverse (List.append_cancel_right hfront)
  simp only [List.reverse_append] at hreverse
  obtain ⟨hmethod, hclient⟩ := split_at (by simpa using request.method_plain.2)
    (by simpa using request'.method_plain.2) (by simp) (by simp) hreverse
  have hclient := List.append_cancel_right (List.append_cancel_left hclient)
  exact ⟨String.toList_inj.mp (List.reverse_injective hclient),
    String.toList_inj.mp (List.reverse_injective hmethod), String.toList_inj.mp hpath⟩

/-- Requests with one key are under one rule. -/
theorem rule_eq_of_key {request request' : Request} (h : request.redisKey = request'.redisKey) :
    request.rule = request'.rule := by
  obtain ⟨-, hmethod, hpath⟩ := redisKey_inj h
  rw [rule, rule, hmethod, hpath]

theorem limit_eq {request : Request} {rule : Rule} (h : request.rule = some rule) :
    request.limit = rule.limit := by
  have hmatched : matchedRule request.method request.path = some rule := h
  rw [limit, getRateLimit, hmatched]

end Request

/-- What comes back of a command on Redis that is sent: its answer, or an exception, and then the
server may have carried it out or not. -/
inductive Reply where
  | answered
  | raised (carried : Bool)
  deriving DecidableEq

namespace Reply

/-- Whether the server carries out the command. -/
def carried : Reply → Bool
  | .answered => true
  | .raised carried => carried

/-- Whether the command raises. -/
def raises : Reply → Bool
  | .answered => false
  | .raised _ => true

theorem raises_of_not_carried {reply : Reply} (h : reply.carried = false) :
    reply.raises = true := by
  cases reply with
  | answered => cases h
  | raised carried => rfl

end Reply

/-- What comes back of each of the commands, if it is sent. -/
structure Faults where
  incr : Reply := .answered
  expire : Reply := .answered
  ttl : Reply := .answered

/-- Whether a counter that the request begins gets its expiry. -/
def Faults.setsExpiry (faults : Faults) : Bool := !faults.incr.raises && faults.expire.carried

/-- A request at a time of the server's clock; `clock` is the time of the
application, in seconds. -/
structure Arrival where
  time : Redis.Time
  clock : Int
  request : Request
  faults : Faults := {}

/-- The outcome for the request: it goes on to the route handler and the headers
are added to the response, or it is answered. -/
inductive Verdict where
  | callNext (headers : List (String × String))
  | response (statusCode : Nat) (content : Json) (headers : List (String × String))

/-- Whether the request goes on. -/
def Verdict.admits : Verdict → Bool
  | .callNext _ => true
  | .response _ _ _ => false

/-- `create_error_response`. -/
def createErrorResponse (code message : String) (details : List Json) : Json :=
  .obj [("error", .obj [("code", .str code), ("message", .str message),
    ("details", .arr details)])]

/-- The last of the commands in the `try` block. -/
def askTtl (reply : Reply) (store : Redis.Store String) (now : Redis.Time) (key : String)
    (current : Nat) : Option (Nat × Int) × Redis.Store String :=
  if reply.raises then (none, store)
  else
    let ttl := store.ttl now key
    (some (current, if ttl < 0 then windowSeconds else ttl), store)

/-- The commands in the `try` block, with the number and the seconds they give, or
`none` where one of them raises. -/
def countRequest (faults : Faults) (store : Redis.Store String) (now : Redis.Time)
    (key : String) : Option (Nat × Int) × Redis.Store String :=
  let (current, counted) := store.incr now key
  let store := if faults.incr.carried then counted else store
  if faults.incr.raises then (none, store)
  else
    let store := if current = 1 ∧ faults.expire.carried = true then
      store.expire now key windowSeconds else store
    if current = 1 ∧ faults.expire.raises = true then (none, store)
    else askTtl faults.ttl store now key current

/-- `RateLimitMiddleware.dispatch`. -/
def dispatch (arrival : Arrival) (store : Redis.Store String) : Verdict × Redis.Store String :=
  let limit := arrival.request.limit
  match countRequest arrival.faults store arrival.time arrival.request.redisKey with
  | (none, store) =>
    (.callNext [("X-RateLimit-Limit", toString limit), ("X-RateLimit-Remaining", toString limit),
      ("X-RateLimit-Reset", toString (arrival.clock + windowSeconds))], store)
  | (some (current, ttl), store) =>
    if limit < current then
      (.response 429
        (createErrorResponse "RATE_LIMIT_EXCEEDED" "Too many requests. Please try again later." [])
        [("X-RateLimit-Limit", toString limit), ("X-RateLimit-Remaining", "0"),
          ("X-RateLimit-Reset", toString (arrival.clock + ttl)), ("Retry-After", toString ttl)],
        store)
    else
      (.callNext [("X-RateLimit-Limit", toString limit),
        ("X-RateLimit-Remaining", toString (limit - current)),
        ("X-RateLimit-Reset", toString (arrival.clock + ttl))], store)

/-! ## One request -/

section

variable {faults : Faults} {store : Redis.Store String} {now : Redis.Time} {key : String}

/-- `TTL` changes nothing. -/
@[simp]
theorem askTtl_store (reply : Reply) (current : Nat) :
    (askTtl reply store now key current).2 = store := by
  unfold askTtl
  split
  · rfl
  · rfl

@[simp]
theorem askTtl_number (reply : Reply) (current : Nat) :
    (askTtl reply store now key current).1.map Prod.fst =
      if reply.raises then none else some current := by
  unfold askTtl
  split
  · rfl
  · rfl

/-- Where `INCR` is not carried out it raises. -/
theorem countRequest_uncarried (hincr : faults.incr.carried = false) :
    countRequest faults store now key = (none, store) := by
  simp [countRequest, hincr, Reply.raises_of_not_carried hincr]

/-- A counter that is there goes up by one, and keeps its expiry. -/
theorem countRequest_found {record : Redis.Record} (hincr : faults.incr.carried = true)
    (hfind : store.find now key = some record) (hpos : 1 ≤ record.value) :
    (countRequest faults store now key).2 = store.put key ⟨record.value + 1, record.expireAt⟩ ∧
      (countRequest faults store now key).1.map Prod.fst =
        if faults.incr.raises || faults.ttl.raises then none else some (record.value + 1) := by
  have hcurrent : record.value + 1 ≠ 1 := by omega
  simp only [countRequest, hincr, if_true, Redis.Store.incr, hfind, hcurrent, false_and, if_false]
  by_cases hraises : faults.incr.raises = true
  · simp [hraises]
  · simp [hraises]

/-- A counter that is not there starts at one, and gets its expiry by a second
command. -/
theorem countRequest_missing (hincr : faults.incr.carried = true)
    (hfind : store.find now key = none) :
    (countRequest faults store now key).2 =
        store.put key ⟨1, if faults.setsExpiry then some (now + window) else none⟩ ∧
      (countRequest faults store now key).1.map Prod.fst =
        if faults.incr.raises || faults.expire.raises || faults.ttl.raises then none
        else some 1 := by
  simp only [countRequest, Faults.setsExpiry, hincr, if_true, Redis.Store.incr, hfind, true_and]
  have hset : (if faults.expire.carried = true then
      (store.put key ⟨1, none⟩).expire now key windowSeconds else store.put key ⟨1, none⟩) =
      store.put key ⟨1, if faults.expire.carried then some (now + window) else none⟩ := by
    rw [Redis.Store.expire_put]
    split
    · rfl
    · rfl
  by_cases hraises : faults.incr.raises = true
  · simp [hraises]
  · by_cases hexpire : faults.expire.raises = true
    · simp [hraises, hexpire, hset]
    · simp [hraises, hexpire, hset]

end

section

variable {arrival : Arrival} {store : Redis.Store String}

theorem dispatch_store : (dispatch arrival store).2 =
    (countRequest arrival.faults store arrival.time arrival.request.redisKey).2 := by
  unfold dispatch
  dsimp only
  split
  · rename_i hcount
    rw [hcount]
  · rename_i hcount
    rw [hcount]
    split
    · rfl
    · rfl

/-- A request is turned away only by a number above the limit. -/
theorem dispatch_admits : (dispatch arrival store).1.admits = true ↔
    ∀ current, (countRequest arrival.faults store arrival.time arrival.request.redisKey).1.map
      Prod.fst = some current → current ≤ arrival.request.limit := by
  unfold dispatch
  dsimp only
  split
  · rename_i hcount
    rw [hcount]
    simp [Verdict.admits]
  · rename_i current ttl store' hcount
    rw [hcount]
    split
    · rename_i hlimit
      simpa [Verdict.admits] using hlimit
    · rename_i hlimit
      simpa [Verdict.admits] using hlimit

/-- What one request does to its counter, and when it is admitted. -/
theorem dispatch_cases
    (hpos : ∀ record, store.find arrival.time arrival.request.redisKey = some record →
      1 ≤ record.value) :
    (arrival.faults.incr.carried = false ∧ (dispatch arrival store).2 = store ∧
      (dispatch arrival store).1.admits = true) ∨
    (∃ record, store.find arrival.time arrival.request.redisKey = some record ∧
      (dispatch arrival store).2 =
        store.put arrival.request.redisKey ⟨record.value + 1, record.expireAt⟩ ∧
      ((dispatch arrival store).1.admits = true ↔
        (arrival.faults.incr.raises || arrival.faults.ttl.raises) = true ∨
          record.value < arrival.request.limit)) ∨
    (arrival.faults.incr.carried = true ∧
      store.find arrival.time arrival.request.redisKey = none ∧
      (dispatch arrival store).2 = store.put arrival.request.redisKey
        ⟨1, if arrival.faults.setsExpiry then some (arrival.time + window) else none⟩ ∧
      (dispatch arrival store).1.admits = true) := by
  rw [dispatch_store, dispatch_admits]
  cases hincr : arrival.faults.incr.carried with
  | false =>
    rw [countRequest_uncarried hincr]
    exact .inl ⟨rfl, rfl, fun current h => by cases h⟩
  | true =>
    cases hfind : store.find arrival.time arrival.request.redisKey with
    | some record =>
      obtain ⟨hstore, hcurrent⟩ := countRequest_found hincr hfind (hpos record hfind)
      refine .inr (.inl ⟨record, rfl, hstore, ?_⟩)
      rw [hcurrent]
      cases arrival.faults.incr.raises || arrival.faults.ttl.raises with
      | true => exact iff_of_true (fun current h => by cases h) (.inl rfl)
      | false =>
        refine ⟨fun hle => .inr (hle _ rfl), fun hadmits current h => ?_⟩
        cases h
        exact hadmits.resolve_left Bool.false_ne_true
    | none =>
      obtain ⟨hstore, hcurrent⟩ := countRequest_missing hincr hfind
      refine .inr (.inr ⟨rfl, rfl, hstore, ?_⟩)
      rw [hcurrent]
      have hone := getRateLimit_pos arrival.request.method arrival.request.path
      rintro current h
      split at h
      · cases h
      · cases h
        exact hone

end

/-! ## Runs -/

/-- The counters on the server, and the requests so far with their outcomes, the
latest first. -/
structure Served where
  store : Redis.Store String
  log : List (Arrival × Verdict)

namespace Served

/-- Nothing has been requested, and the server has no keys. -/
def fresh : Served := ⟨.empty, []⟩

/-- One more request. -/
def next (s : Served) (arrival : Arrival) : Served :=
  ⟨(dispatch arrival s.store).2, (arrival, (dispatch arrival s.store).1) :: s.log⟩

@[simp]
theorem store_next (s : Served) (arrival : Arrival) :
    (s.next arrival).store = (dispatch arrival s.store).2 := rfl

@[simp]
theorem log_next (s : Served) (arrival : Arrival) :
    (s.next arrival).log = (arrival, (dispatch arrival s.store).1) :: s.log := rfl

/-- No request came after this time. -/
def Until (s : Served) (now : Redis.Time) : Prop := ∀ x ∈ s.log, x.1.time ≤ now

/-- The requests of a client that a rule admitted, the latest first. -/
def admitted (s : Served) (client : String) (rule : Rule) : List Arrival :=
  (s.log.filter (fun x => x.2.admits && x.1.request.client = client &&
    x.1.request.rule = some rule)).map Prod.fst

/-- The times of these requests. -/
def admittedTimes (s : Served) (client : String) (rule : Rule) : List Redis.Time :=
  (s.admitted client rule).map (·.time)

theorem mem_admitted {s : Served} {client : String} {rule : Rule} {x : Arrival} :
    x ∈ s.admitted client rule ↔ ∃ verdict : Verdict, (x, verdict) ∈ s.log ∧
      verdict.admits = true ∧ x.request.client = client ∧ x.request.rule = some rule := by
  simp only [admitted, List.mem_map, List.mem_filter, Bool.and_eq_true, decide_eq_true_eq]
  constructor
  · rintro ⟨⟨x', verdict⟩, ⟨hmem, ⟨hadmits, hclient⟩, hrule⟩, rfl⟩
    exact ⟨verdict, hmem, hadmits, hclient, hrule⟩
  · rintro ⟨verdict, hmem, hadmits, hclient, hrule⟩
    exact ⟨(x, verdict), ⟨hmem, ⟨hadmits, hclient⟩, hrule⟩, rfl⟩

theorem admitted_next_of {s : Served} {arrival : Arrival} {rule : Rule}
    (hadmits : (dispatch arrival s.store).1.admits = true)
    (hrule : arrival.request.rule = some rule) :
    (s.next arrival).admitted arrival.request.client rule =
      arrival :: s.admitted arrival.request.client rule := by
  simp [admitted, hadmits, hrule]

theorem admitted_next_of_not {s : Served} {arrival : Arrival} {client : String} {rule : Rule}
    (h : ¬ ((dispatch arrival s.store).1.admits = true ∧ arrival.request.client = client ∧
      arrival.request.rule = some rule)) :
    (s.next arrival).admitted client rule = s.admitted client rule := by
  rw [admitted, log_next, List.filter_cons_of_neg, admitted]
  simpa [and_assoc] using h

theorem Until.time_le {s : Served} {now : Redis.Time} (h : s.Until now) {client : String}
    {rule : Rule} {x : Arrival} (hx : x ∈ s.admitted client rule) : x.time ≤ now := by
  obtain ⟨verdict, hmem, -⟩ := mem_admitted.mp hx
  exact h _ hmem

end Served

/-- The runs in which each request meets a condition. -/
inductive Reached (Meets : Served → Arrival → Prop) : Served → Prop where
  | fresh : Reached Meets .fresh
  | next {s : Served} {arrival : Arrival} : Reached Meets s → s.Until arrival.time →
      Meets s arrival → Reached Meets (s.next arrival)

variable {s : Served} {arrival : Arrival} {client : String} {rule : Rule}

theorem Reached.mono {Meets Meets' : Served → Arrival → Prop} (h : Reached Meets s)
    (hmono : ∀ s arrival, Meets s arrival → Meets' s arrival) : Reached Meets' s := by
  induction h with
  | fresh => exact .fresh
  | next _ huntil hmeets ih => exact ih.next huntil (hmono _ _ hmeets)

theorem Served.Until.next (h : s.Until arrival.time) : (s.next arrival).Until arrival.time := by
  intro x hx
  rcases List.mem_cons.mp hx with rfl | hx
  · exact le_rfl
  · exact h x hx

/-- A registration by one client, where `rest` comes after the path of the route. -/
def registration (rest : String) : Request where
  client := "10.0.0.7"
  method := "POST"
  path := "/api/tenants/register" ++ rest
  client_plain := by decide
  method_plain := by decide
  path_absolute := by
    intro c hc
    rw [String.toList_append] at hc
    cases hc
    rfl

/-- A registration at a time, with the commands that fail. -/
def registering (time : Redis.Time) (faults : Faults) : Arrival :=
  ⟨time, 0, registration "", faults⟩

theorem until_fresh_next {now : Redis.Time} (h : arrival.time ≤ now) :
    (Served.fresh.next arrival).Until now := by
  intro x hx
  obtain rfl := List.mem_singleton.mp hx
  exact h

/-! ## Counters without an expiry -/

/-- Every counter on the server counts something. -/
def Counting (store : Redis.Store String) : Prop :=
  ∀ key record, store key = some record → 1 ≤ record.value

theorem Counting.found {store : Redis.Store String} (h : Counting store) (now : Redis.Time)
    (key : String) (record : Redis.Record) (hfind : store.find now key = some record) :
    1 ≤ record.value := h key record (Redis.Store.find_eq_some_iff.mp hfind).1

theorem Counting.put {store : Redis.Store String} (h : Counting store) {key : String}
    {record : Redis.Record} (hrecord : 1 ≤ record.value) : Counting (store.put key record) := by
  intro key' record' hget
  by_cases heq : key' = key
  · subst heq
    rw [Redis.Store.put_self] at hget
    cases hget
    exact hrecord
  · rw [Redis.Store.put_ne _ _ heq] at hget
    exact h key' record' hget

theorem Counting.dispatch {store : Redis.Store String} (h : Counting store) (arrival : Arrival) :
    Counting (dispatch arrival store).2 := by
  rcases dispatch_cases (h.found arrival.time arrival.request.redisKey) with
    ⟨-, hstore, -⟩ | ⟨record, -, hstore, -⟩ | ⟨-, -, hstore, -⟩
  · rwa [hstore]
  · rw [hstore]
    exact h.put (Nat.succ_pos _)
  · rw [hstore]
    exact h.put le_rfl

/-- Other counters are as they were. -/
theorem dispatch_frame {store : Redis.Store String} (h : Counting store) {key : String}
    (hkey : key ≠ arrival.request.redisKey) : (dispatch arrival store).2 key = store key := by
  rcases dispatch_cases (h.found arrival.time arrival.request.redisKey) with
    ⟨-, hstore, -⟩ | ⟨_, -, hstore, -⟩ | ⟨-, -, hstore, -⟩
  · rw [hstore]
  · rw [hstore, Redis.Store.put_ne _ _ hkey]
  · rw [hstore, Redis.Store.put_ne _ _ hkey]

theorem Reached.counting {Meets : Served → Arrival → Prop} (h : Reached Meets s) :
    Counting s.store := by
  induction h with
  | fresh => exact fun _ _ hget => nomatch hget
  | next _ _ _ ih => exact ih.dispatch _

/-- Each counter expires, at most `WINDOW_SECONDS` after the last request on it. -/
def Expires (s : Served) : Prop :=
  ∀ key record, s.store key = some record → ∃ t, record.expireAt = some t ∧
    ∃ x ∈ s.log, x.1.request.redisKey = key ∧ t ≤ x.1.time + window

/-- Where the request creates its counter, the counter gets its expiry. -/
def SetsExpiry (s : Served) (arrival : Arrival) : Prop :=
  s.store.find arrival.time arrival.request.redisKey = none →
    arrival.faults.incr.carried = true → arrival.faults.setsExpiry = true

theorem expires_of_reached (h : Reached SetsExpiry s) : Expires s := by
  induction h with
  | fresh => exact fun _ _ hget => nomatch hget
  | @next s arrival hreached _ hsets ih =>
    intro key record hget
    have hold : ∀ record, s.store key = some record → ∃ t, record.expireAt = some t ∧
        ∃ x ∈ (s.next arrival).log, x.1.request.redisKey = key ∧ t ≤ x.1.time + window := by
      intro record hget
      obtain ⟨t, ht, x, hx, hkey, hle⟩ := ih key record hget
      exact ⟨t, ht, x, List.mem_cons_of_mem _ hx, hkey, hle⟩
    have hget : (dispatch arrival s.store).2 key = some record := hget
    by_cases hkey : key = arrival.request.redisKey
    · rcases dispatch_cases (hreached.counting.found arrival.time arrival.request.redisKey) with
        ⟨-, hstore, -⟩ | ⟨old, hfind, hstore, -⟩ | ⟨hincr, hfind, hstore, -⟩
      · rw [hstore] at hget
        exact hold record hget
      · rw [hstore, hkey, Redis.Store.put_self] at hget
        cases hget
        have hfound := (Redis.Store.find_eq_some_iff.mp hfind).1
        rw [← hkey] at hfound
        exact hold old hfound
      · rw [hstore, hkey, Redis.Store.put_self] at hget
        cases hget
        refine ⟨arrival.time + window, ?_, _, List.mem_cons_self, hkey.symm, le_rfl⟩
        rw [hsets hfind hincr]
        rfl
    · rw [dispatch_frame hreached.counting hkey] at hget
      exact hold record hget

/-- A counter without an expiry never gets one. -/
theorem lasting_foldl {later : List Arrival} {key : String} (hcounting : Counting s.store)
    (h : ∃ value, s.store key = some ⟨value, none⟩) :
    ∃ value, (later.foldl Served.next s).store key = some ⟨value, none⟩ := by
  induction later generalizing s with
  | nil => exact h
  | cons arrival later ih =>
    refine ih (hcounting.dispatch arrival) ?_
    obtain ⟨value, hvalue⟩ := h
    by_cases hkey : key = arrival.request.redisKey
    · subst hkey
      have hfound := Redis.Store.find_of_lasting arrival.time hvalue
      rcases dispatch_cases (hcounting.found arrival.time arrival.request.redisKey) with
        ⟨-, hstore, -⟩ | ⟨record, hfind, hstore, -⟩ | ⟨-, hfind, -, -⟩
      · exact ⟨value, by rw [Served.store_next, hstore, hvalue]⟩
      · cases hfound.symm.trans hfind
        exact ⟨value + 1, by rw [Served.store_next, hstore, Redis.Store.put_self]⟩
      · cases hfound.symm.trans hfind
    · exact ⟨value, by rw [← hvalue, Served.store_next, dispatch_frame hcounting hkey]⟩

/-- A request that has its answers has set the expiry of a counter that it began. -/
theorem setsExpiry_of_counted {faults : Faults} {counted : Option (Nat × Int)}
    (hcurrent : counted.map Prod.fst =
      if faults.incr.raises || faults.expire.raises || faults.ttl.raises then none else some 1)
    (hcounted : counted.isSome = true) : faults.setsExpiry = true := by
  split at hcurrent
  · rw [Option.map_eq_none_iff.mp hcurrent] at hcounted
    cases hcounted
  · rename_i hraises
    simp only [Bool.or_eq_true, not_or, Bool.not_eq_true] at hraises
    have hcarried : faults.expire.carried = true := by
      by_contra huncarried
      rw [Reply.raises_of_not_carried (Bool.eq_false_iff.mpr huncarried)] at hraises
      cases hraises.1.2
    rw [Faults.setsExpiry, hraises.1.1, hcarried]
    rfl

/-- As long as a request that creates a counter goes on to `EXPIRE` and this is carried
out, the counter of every request without a failing command has an expiry, and a request
is admitted that comes when `WINDOW_SECONDS` have passed after all others on its counter.
Where it is not so once, the counter never gets an expiry, whatever is requested later. -/
theorem expires_when (s : Served) :
    (Reached SetsExpiry s → ∀ arrival, s.Until arrival.time →
      ((countRequest arrival.faults s.store arrival.time arrival.request.redisKey).1.isSome = true →
        ∃ value t, (s.next arrival).store arrival.request.redisKey = some ⟨value, some t⟩) ∧
      ((∀ x ∈ s.log, x.1.request.redisKey = arrival.request.redisKey →
          x.1.time + window < arrival.time) →
        (dispatch arrival s.store).1.admits = true)) ∧
    (Reached (fun _ _ => True) s → ∀ arrival, ¬ SetsExpiry s arrival →
      ∀ later : List Arrival, ∃ value, (later.foldl Served.next (s.next arrival)).store
        arrival.request.redisKey = some ⟨value, none⟩) := by
  constructor
  · intro hreached arrival huntil
    have hexpires := expires_of_reached hreached
    rcases dispatch_cases (hreached.counting.found arrival.time arrival.request.redisKey) with
      ⟨hincr, -, hadmits⟩ | ⟨record, hfind, hstore, -⟩ | ⟨hincr, hfind, hstore, hadmits⟩
    · refine ⟨fun hcount => ?_, fun _ => hadmits⟩
      rw [countRequest_uncarried hincr] at hcount
      cases hcount
    · obtain ⟨hfound, hlive⟩ := Redis.Store.find_eq_some_iff.mp hfind
      obtain ⟨t, ht, x, hx, hkey, hle⟩ := hexpires _ record hfound
      refine ⟨fun _ => ⟨record.value + 1, t, ?_⟩, fun hold => ?_⟩
      · rw [Served.store_next, hstore, Redis.Store.put_self, ht]
      · have hover := hold x hx hkey
        have hbefore := (Redis.Record.live_iff ht arrival.time).mp hlive
        exact absurd hbefore (Nat.not_le.mpr (Nat.lt_of_le_of_lt hle hover))
    · refine ⟨fun hcount => ?_, fun _ => hadmits⟩
      obtain ⟨-, hcurrent⟩ := countRequest_missing hincr hfind
      have hset : arrival.faults.setsExpiry = true :=
        setsExpiry_of_counted hcurrent hcount
      refine ⟨1, arrival.time + window, ?_⟩
      rw [Served.store_next, hstore, Redis.Store.put_self, hset]
      rfl
  · intro hreached arrival hfails later
    simp only [SetsExpiry, Classical.not_imp] at hfails
    obtain ⟨hmissing, hincr, hexpire⟩ := hfails
    refine lasting_foldl (hreached.counting.dispatch arrival) ⟨1, ?_⟩
    obtain ⟨hstore, -⟩ := countRequest_missing hincr hmissing
    rw [Served.store_next, dispatch_store, hstore, Redis.Store.put_self, if_neg hexpire]

/-- The second of two registrations: the counter has an expiry. -/
theorem expires_when_second : ∃ value t,
    ((Served.fresh.next (registering 0 {})).next (registering 1000 {})).store
      (registering 0 {}).request.redisKey = some ⟨value, some t⟩ := by
  have hfirst : Reached SetsExpiry (Served.fresh.next (registering 0 {})) :=
    .next .fresh (fun _ hx => nomatch hx) (fun _ _ => rfl)
  exact ((expires_when _).1 hfirst (registering 1000 {}) (until_fresh_next (Nat.zero_le _))).1
    (by decide +kernel)

/-- Where `EXPIRE` fails on the first request, a second one without failures leaves
the counter without an expiry. -/
theorem not_expires :
    ¬ ∀ s, Reached (fun _ _ => True) s → ∀ arrival, s.Until arrival.time →
      (countRequest arrival.faults s.store arrival.time arrival.request.redisKey).1.isSome = true →
        ∃ value t, (s.next arrival).store arrival.request.redisKey = some ⟨value, some t⟩ := by
  intro hall
  have hfirst : Reached (fun _ _ => True)
      (Served.fresh.next (registering 0 { expire := .raised false })) :=
    .next .fresh (fun _ hx => nomatch hx) trivial
  obtain ⟨value, t, hget⟩ := hall _ hfirst (registering 1000 {})
    (until_fresh_next (Nat.zero_le _)) (by decide +kernel)
  have hlasting : ((Served.fresh.next (registering 0 { expire := .raised false })).next
      (registering 1000 {})).store (registering 1000 {}).request.redisKey =
        some ⟨2, none⟩ := by decide +kernel
  cases hlasting.symm.trans hget

/-! ## The limit of a rule -/

/-- No command fails. -/
def Available (_ : Served) (arrival : Arrival) : Prop := arrival.faults = {}

/-- A request that starts a new counter comes when none of the client's requests
under the same rule was admitted in the last `WINDOW_SECONDS`. -/
def StartsAlone (s : Served) (arrival : Arrival) : Prop :=
  ∀ rule, arrival.request.rule = some rule →
    s.store.find arrival.time arrival.request.redisKey = none →
      ∀ x ∈ s.admitted arrival.request.client rule, x.time + window < arrival.time

/-- What a request does when no command fails. -/
theorem dispatch_available {store : Redis.Store String} (h : Counting store)
    (hfaults : arrival.faults = {}) :
    (∃ record, store.find arrival.time arrival.request.redisKey = some record ∧
      (dispatch arrival store).2 =
        store.put arrival.request.redisKey ⟨record.value + 1, record.expireAt⟩ ∧
      ((dispatch arrival store).1.admits = true ↔ record.value < arrival.request.limit)) ∨
    (store.find arrival.time arrival.request.redisKey = none ∧
      (dispatch arrival store).2 =
        store.put arrival.request.redisKey ⟨1, some (arrival.time + window)⟩ ∧
      (dispatch arrival store).1.admits = true) := by
  rcases dispatch_cases (h.found arrival.time arrival.request.redisKey) with
    ⟨hincr, -⟩ | ⟨record, hfind, hstore, hadmits⟩ | ⟨-, hfind, hstore, hadmits⟩
  · rw [hfaults] at hincr
    cases hincr
  · refine .inl ⟨record, hfind, hstore, hadmits.trans ?_⟩
    rw [hfaults]
    exact or_iff_right Bool.false_ne_true
  · refine .inr ⟨hfind, ?_, hadmits⟩
    rw [hstore, hfaults]
    rfl

/-- Each counter was started by a request that was admitted. -/
def Started (s : Served) : Prop :=
  ∀ key record, s.store key = some record → ∃ x verdict, (x, verdict) ∈ s.log ∧
    verdict.admits = true ∧ x.request.redisKey = key ∧ record.expireAt = some (x.time + window)

theorem started_of_reached (h : Reached Available s) : Started s := by
  induction h with
  | fresh => exact fun _ _ hget => nomatch hget
  | @next s arrival hreached _ hfaults ih =>
    intro key record hget
    have hold : ∀ record, s.store key = some record → ∃ x verdict,
        (x, verdict) ∈ (s.next arrival).log ∧ verdict.admits = true ∧ x.request.redisKey = key ∧
          record.expireAt = some (x.time + window) := by
      intro record hget
      obtain ⟨x, verdict, hx, hrest⟩ := ih key record hget
      exact ⟨x, verdict, List.mem_cons_of_mem _ hx, hrest⟩
    rw [Served.store_next] at hget
    by_cases hkey : key = arrival.request.redisKey
    · subst hkey
      rcases dispatch_available hreached.counting hfaults with
        ⟨old, hfind, hstore, -⟩ | ⟨-, hstore, hadmits⟩
      · rw [hstore, Redis.Store.put_self] at hget
        cases hget
        exact hold old (Redis.Store.find_eq_some_iff.mp hfind).1
      · rw [hstore, Redis.Store.put_self] at hget
        cases hget
        exact ⟨arrival, _, List.mem_cons_self, hadmits, rfl, rfl⟩
    · rw [dispatch_frame hreached.counting hkey] at hget
      exact hold record hget

/-- The requests of the client that the rule admitted are those on the counter that
`first` started, and some that are too old to count. -/
structure CountedFrom (s : Served) (client : String) (rule : Rule) (first : Arrival) : Prop where
  mem : first ∈ s.admitted client rule
  counter : ∃ value, s.store first.request.redisKey = some ⟨value, some (first.time + window)⟩ ∧
    ((s.admitted client rule).filter (fun x => first.time ≤ x.time)).length ≤
      min value rule.limit
  others : ∀ x ∈ s.admitted client rule, x.time + window < first.time ∨
    first.time ≤ x.time ∧ x.request.redisKey = first.request.redisKey

namespace CountedFrom

variable {first : Arrival}

/-- The key is used by this client under this rule only. -/
theorem same_rule (h : CountedFrom s client rule first)
    (hkey : first.request.redisKey = arrival.request.redisKey) :
    arrival.request.client = client ∧ arrival.request.rule = some rule := by
  obtain ⟨-, -, -, hclient, hrule⟩ := Served.mem_admitted.mp h.mem
  exact ⟨(Request.redisKey_inj hkey).1.symm.trans hclient, (Request.rule_eq_of_key hkey).symm.trans hrule⟩

/-- What is recent was counted since the counter was started. -/
theorem recent_le (h : CountedFrom s client rule first) {now : Redis.Time} (huntil : s.Until now) :
    (Window.recent window now (s.admittedTimes client rule)).length ≤
      ((s.admitted client rule).filter (fun x => first.time ≤ x.time)).length := by
  rw [Window.recent, Served.admittedTimes, List.filter_map, List.length_map]
  have hsub : (s.admitted client rule).filter (fun x => now ≤ x.time + window) =
      ((s.admitted client rule).filter (fun x => first.time ≤ x.time)).filter
        (fun x => now ≤ x.time + window) := by
    rw [List.filter_filter]
    refine List.filter_congr fun x hx => ?_
    rcases h.others x hx with hold | ⟨hfirst, -⟩
    · have hover : ¬ now ≤ x.time + window :=
        Nat.not_le.mpr (Nat.lt_of_lt_of_le hold (huntil.time_le h.mem))
      simp [hover]
    · simp [hfirst]
  refine (congrArg List.length hsub).trans_le ?_
  exact List.length_filter_le _ _

/-- Other requests leave it as it is, and so do those that are turned away. -/
theorem next_of_not (h : CountedFrom s client rule first) (hcounting : Counting s.store)
    (hfaults : arrival.faults = {})
    (hother : ¬ ((dispatch arrival s.store).1.admits = true ∧ arrival.request.client = client ∧
      arrival.request.rule = some rule)) : CountedFrom (s.next arrival) client rule first := by
  have hadmitted := Served.admitted_next_of_not hother
  obtain ⟨value, hvalue, hcount⟩ := h.counter
  refine ⟨by rw [hadmitted]; exact h.mem, ?_, by rw [hadmitted]; exact h.others⟩
  rw [hadmitted, Served.store_next]
  by_cases hkey : first.request.redisKey = arrival.request.redisKey
  · obtain ⟨hclient, hrule⟩ := h.same_rule hkey
    rcases dispatch_available hcounting hfaults with
      ⟨old, hfind, hstore, -⟩ | ⟨-, -, hadmits⟩
    · have hold := (Redis.Store.find_eq_some_iff.mp hfind).1
      rw [← hkey, hvalue] at hold
      cases hold
      refine ⟨value + 1, ?_, hcount.trans (min_le_min_right _ (Nat.le_succ _))⟩
      rw [hstore, hkey, Redis.Store.put_self]
    · exact absurd ⟨hadmits, hclient, hrule⟩ hother
  · exact ⟨value, by rw [dispatch_frame hcounting hkey, hvalue], hcount⟩

/-- A request on a live counter of the client is on this one. -/
theorem key_eq (h : CountedFrom s client rule first) (hstarted : Started s)
    (huntil : s.Until arrival.time) (hclient : arrival.request.client = client)
    (hrule : arrival.request.rule = some rule) {record : Redis.Record}
    (hfind : s.store.find arrival.time arrival.request.redisKey = some record) :
    first.request.redisKey = arrival.request.redisKey := by
  obtain ⟨hget, hlive⟩ := Redis.Store.find_eq_some_iff.mp hfind
  obtain ⟨x, verdict, hx, hadmits, hkey, hexpire⟩ := hstarted _ record hget
  have hmem : x ∈ s.admitted client rule := Served.mem_admitted.mpr ⟨verdict, hx, hadmits,
    (Request.redisKey_inj hkey).1.trans hclient, (Request.rule_eq_of_key hkey).trans hrule⟩
  have hbefore := (Redis.Record.live_iff hexpire arrival.time).mp hlive
  rcases h.others x hmem with hold | ⟨-, hsame⟩
  · exact absurd hbefore (Nat.not_le.mpr (Nat.lt_of_lt_of_le hold (huntil.time_le h.mem)))
  · exact hsame.symm.trans hkey

/-- An admission on the counter. -/
theorem next_of_found (h : CountedFrom s client rule first) (hcounting : Counting s.store)
    (huntil : s.Until arrival.time) (hfaults : arrival.faults = {})
    (hkey : first.request.redisKey = arrival.request.redisKey) {record : Redis.Record}
    (hfind : s.store.find arrival.time arrival.request.redisKey = some record)
    (hadmits : (dispatch arrival s.store).1.admits = true) :
    ((s.admitted client rule).filter (fun x => first.time ≤ x.time)).length < rule.limit ∧
      CountedFrom (s.next arrival) client rule first := by
  obtain ⟨rfl, hrule⟩ := h.same_rule hkey
  obtain ⟨value, hvalue, hcount⟩ := h.counter
  have hold := (Redis.Store.find_eq_some_iff.mp hfind).1
  rw [← hkey, hvalue] at hold
  cases hold
  rcases dispatch_available hcounting hfaults with ⟨old, hfind', hstore, hlimit⟩ | ⟨hnone, -⟩
  swap
  · cases hnone.symm.trans hfind
  cases hfind'.symm.trans hfind
  have hvalueLimit := hlimit.mp hadmits
  rw [Request.limit_eq hrule] at hvalueLimit
  have hlt := lt_of_le_of_lt (hcount.trans (min_le_left _ _)) hvalueLimit
  refine ⟨hlt, ?_⟩
  have hadmitted := Served.admitted_next_of hadmits hrule
  constructor
  case mem => rw [hadmitted]; exact List.mem_cons_of_mem _ h.mem
  case counter =>
    refine ⟨value + 1, ?_, ?_⟩
    · rw [Served.store_next, hstore, hkey, Redis.Store.put_self]
    · have hlater := huntil.time_le h.mem
      rw [hadmitted, List.filter_cons_of_pos (by simpa using hlater), List.length_cons]
      exact le_min (Nat.succ_le_succ (hcount.trans (min_le_left _ _))) hlt
  case others =>
    rw [hadmitted]
    intro x hx
    rcases List.mem_cons.mp hx with rfl | hx
    · exact .inr ⟨huntil.time_le h.mem, hkey.symm⟩
    · exact h.others x hx

end CountedFrom

/-- A request that starts a counter. -/
theorem countedFrom_new (hcounting : Counting s.store) (hfaults : arrival.faults = {})
    (hrule : arrival.request.rule = some rule)
    (hfind : s.store.find arrival.time arrival.request.redisKey = none)
    (hold : ∀ x ∈ s.admitted arrival.request.client rule, x.time + window < arrival.time) :
    CountedFrom (s.next arrival) arrival.request.client rule arrival := by
  rcases dispatch_available hcounting hfaults with ⟨_, hfind', -⟩ | ⟨-, hstore, hadmits⟩
  · cases hfind'.symm.trans hfind
  have hadmitted := Served.admitted_next_of hadmits hrule
  constructor
  case mem => rw [hadmitted]; exact List.mem_cons_self
  case counter =>
    refine ⟨1, by rw [Served.store_next, hstore, Redis.Store.put_self], ?_⟩
    have hnone : (s.admitted arrival.request.client rule).filter
        (fun x => arrival.time ≤ x.time) = [] := by
      refine List.filter_eq_nil_iff.mpr fun x hx hle => ?_
      have hbefore : x.time < arrival.time := Nat.lt_of_le_of_lt (Nat.le_add_right _ _) (hold x hx)
      exact absurd (of_decide_eq_true hle) (Nat.not_le.mpr hbefore)
    rw [hadmitted, List.filter_cons_of_pos (by simp), hnone]
    refine le_min le_rfl ?_
    rw [← Request.limit_eq hrule]
    exact getRateLimit_pos _ _
  case others =>
    rw [hadmitted]
    intro x hx
    rcases List.mem_cons.mp hx with rfl | hx
    · exact .inr ⟨le_rfl, rfl⟩
    · exact .inl (hold x hx)

/-- The admissions of a client under a rule are on one counter, but for those that
are too old to count, and keep the limit. -/
def Limited (s : Served) : Prop :=
  ∀ client rule, Window.Bounded window rule.limit (s.admittedTimes client rule) ∧
    (s.admitted client rule ≠ [] → ∃ first, CountedFrom s client rule first)

theorem limited_of_reached
    (h : Reached (fun s arrival => Available s arrival ∧ StartsAlone s arrival) s) :
    Limited s := by
  induction h with
  | fresh => exact fun _ _ => ⟨Window.bounded_nil _ _, fun hne => absurd rfl hne⟩
  | @next s arrival hreached huntil hmeets ih =>
    intro client rule
    obtain ⟨hfaults, halone⟩ := hmeets
    obtain ⟨hbounded, hfirst⟩ := ih client rule
    have hcounting := hreached.counting
    have hstarted := started_of_reached (hreached.mono fun _ _ h => h.1)
    by_cases hadmit : (dispatch arrival s.store).1.admits = true ∧
        arrival.request.client = client ∧ arrival.request.rule = some rule
    · obtain ⟨hadmits, rfl, hrule⟩ := hadmit
      have htimes : (s.next arrival).admittedTimes arrival.request.client rule =
          arrival.time :: s.admittedTimes arrival.request.client rule :=
        congrArg (List.map Arrival.time) (Served.admitted_next_of hadmits hrule)
      rw [htimes]
      cases hfind : s.store.find arrival.time arrival.request.redisKey with
      | some record =>
        obtain ⟨x, verdict, hx, hx', hkey, -⟩ :=
          hstarted _ record (Redis.Store.find_eq_some_iff.mp hfind).1
        have hmem : x ∈ s.admitted arrival.request.client rule :=
          Served.mem_admitted.mpr ⟨verdict, hx, hx', (Request.redisKey_inj hkey).1,
            (Request.rule_eq_of_key hkey).trans hrule⟩
        obtain ⟨first, hcounted⟩ := hfirst (List.ne_nil_of_mem hmem)
        have hsame := hcounted.key_eq hstarted huntil rfl hrule hfind
        obtain ⟨hroom, hnext⟩ :=
          hcounted.next_of_found hcounting huntil hfaults hsame hfind hadmits
        exact ⟨hbounded.cons ((hcounted.recent_le huntil).trans_lt hroom),
          fun _ => ⟨first, hnext⟩⟩
      | none =>
        have hold := halone rule hrule hfind
        have hnone : Window.recent window arrival.time
            (s.admittedTimes arrival.request.client rule) = [] := by
          refine List.filter_eq_nil_iff.mpr fun t ht hrecent => ?_
          obtain ⟨x, hx, rfl⟩ := List.mem_map.mp ht
          exact absurd (of_decide_eq_true hrecent) (not_le.mpr (hold x hx))
        refine ⟨hbounded.cons ?_, fun _ => ⟨arrival, countedFrom_new hcounting hfaults hrule hfind
          hold⟩⟩
        rw [hnone, ← Request.limit_eq hrule]
        exact getRateLimit_pos _ _
    · have hadmitted := Served.admitted_next_of_not hadmit
      refine ⟨by rw [Served.admittedTimes, hadmitted]; exact hbounded, fun hne => ?_⟩
      rw [hadmitted] at hne
      obtain ⟨first, hcounted⟩ := hfirst hne
      exact ⟨first, hcounted.next_of_not hcounting hfaults hadmit⟩

/-- The requests come again and again, at one time. -/
def Served.repeated (s : Served) (arrival : Arrival) : Nat → Served
  | 0 => s
  | n + 1 => (s.repeated arrival n).next arrival

theorem Reached.repeated (h : Reached Available s) (huntil : s.Until arrival.time)
    (hfaults : arrival.faults = {}) (n : Nat) :
    Reached Available (s.repeated arrival n) := by
  have hall : ∀ n, Reached Available (s.repeated arrival n) ∧
      (s.repeated arrival n).Until arrival.time := by
    intro n
    induction n with
    | zero => exact ⟨h, huntil⟩
    | succ n ih => exact ⟨ih.1.next ih.2 hfaults, ih.2.next⟩
  exact (hall n).1

/-- On a new counter as many requests are admitted as the limit says. -/
theorem repeated_admitted (hcounting : Counting s.store) (hfaults : arrival.faults = {})
    (hrule : arrival.request.rule = some rule)
    (hfind : s.store.find arrival.time arrival.request.redisKey = none) {n : Nat}
    (hn : n < rule.limit) :
    Counting (s.repeated arrival (n + 1)).store ∧
      (s.repeated arrival (n + 1)).store arrival.request.redisKey =
        some ⟨n + 1, some (arrival.time + window)⟩ ∧
      (s.repeated arrival (n + 1)).admitted arrival.request.client rule =
        List.replicate (n + 1) arrival ++ s.admitted arrival.request.client rule := by
  induction n with
  | zero =>
    refine ⟨hcounting.dispatch arrival, ?_⟩
    rcases dispatch_available hcounting hfaults with ⟨_, hfind', -⟩ | ⟨-, hstore, hadmits⟩
    · cases hfind'.symm.trans hfind
    · refine ⟨?_, Served.admitted_next_of hadmits hrule⟩
      rw [Served.repeated, Served.store_next, Served.repeated, hstore, Redis.Store.put_self]
  | succ n ih =>
    obtain ⟨hcounting', hget, hadmitted⟩ := ih (Nat.lt_of_succ_lt hn)
    refine ⟨hcounting'.dispatch arrival, ?_⟩
    have hlive : (⟨n + 1, some (arrival.time + window)⟩ : Redis.Record).live arrival.time = true :=
      (Redis.Record.live_iff rfl arrival.time).mpr (Nat.le_add_right _ _)
    have hfound := Redis.Store.find_eq_some_iff.mpr ⟨hget, hlive⟩
    rcases dispatch_available hcounting' hfaults with
      ⟨record, hfind', hstore, hadmits⟩ | ⟨hnone, -⟩
    · cases hfind'.symm.trans hfound
      rw [Request.limit_eq hrule] at hadmits
      refine ⟨?_, ?_⟩
      · rw [Served.repeated, Served.store_next, hstore, Redis.Store.put_self]
      · rw [Served.repeated, Served.admitted_next_of (hadmits.mpr hn) hrule, hadmitted]
        rfl
    · cases hnone.symm.trans hfound

/-- While no command fails, the limit of each rule holds for each client over every
interval of `WINDOW_SECONDS`, as long as a request that starts a new counter comes
when no admission under its rule is recent.  Where one does not, it can be repeated
until the limit is broken. -/
theorem rateLimit_holds_when (s : Served) :
    (Reached (fun s arrival => Available s arrival ∧ StartsAlone s arrival) s →
      ∀ client, ∀ rule ∈ routeLimits,
        Window.Bounded window rule.limit (s.admittedTimes client rule)) ∧
    (Reached Available s → ∀ arrival, s.Until arrival.time → Available s arrival →
      ¬ StartsAlone s arrival → ∃ rule, arrival.request.rule = some rule ∧
        ¬ Window.Bounded window rule.limit
          ((s.repeated arrival rule.limit).admittedTimes arrival.request.client rule)) := by
  constructor
  · exact fun hreached client rule _ => (limited_of_reached hreached client rule).1
  · intro hreached arrival huntil hfaults hbeside
    simp only [StartsAlone, not_forall, not_lt] at hbeside
    obtain ⟨rule, hrule, hfind, x, hx, hrecent⟩ := hbeside
    refine ⟨rule, hrule, fun hbounded => ?_⟩
    have hpos : 1 ≤ rule.limit := by
      rw [← Request.limit_eq hrule]
      exact getRateLimit_pos _ _
    obtain ⟨n, hn⟩ := Nat.exists_eq_add_one.mpr hpos
    obtain ⟨-, -, hadmitted⟩ :=
      repeated_admitted hreached.counting hfaults hrule hfind (Nat.lt_of_succ_le hn.ge)
    -- The interval that starts with the old admission has the new ones in it as well.
    have hnew : Window.within window x.time (List.replicate (n + 1) arrival.time) =
        List.replicate (n + 1) arrival.time :=
      List.filter_eq_self.mpr fun t ht => by
        rw [List.eq_of_mem_replicate ht]
        exact decide_eq_true ⟨huntil.time_le hx, hrecent⟩
    have hold : x.time ∈ Window.within window x.time
        (s.admittedTimes arrival.request.client rule) :=
      List.mem_filter.mpr ⟨List.mem_map_of_mem hx,
        decide_eq_true ⟨le_rfl, Nat.le_add_right _ _⟩⟩
    have hcount := hbounded x.time
    rw [hn, Served.admittedTimes, hadmitted, List.map_append, List.map_replicate,
      Window.within, List.filter_append] at hcount
    have hlength : (Window.within window x.time (List.replicate (n + 1) arrival.time)).length +
        (Window.within window x.time (s.admittedTimes arrival.request.client rule)).length ≤
          n + 1 := by
      rw [← List.length_append]
      exact hcount
    rw [hnew, List.length_replicate] at hlength
    have hone := List.length_pos_of_mem hold
    omega

/-- Two registrations on one counter keep the limit; one on another path starts a
second counter, and six are let through where five are allowed. -/
theorem rateLimit_holds_when_registering :
    (∀ client, ∀ rule ∈ routeLimits, Window.Bounded window rule.limit
      (((Served.fresh.next (registering 0 {})).next (registering 1000 {})).admittedTimes
        client rule)) ∧
    ∃ rule, (registration "/").rule = some rule ∧
      ¬ Window.Bounded window rule.limit
        (((Served.fresh.next (registering 0 {})).repeated
          ⟨0, 0, registration "/", {}⟩ rule.limit).admittedTimes
            "10.0.0.7" rule) := by
  have hfirst : Reached Available (Served.fresh.next (registering 0 {})) :=
    .next .fresh (fun _ hx => nomatch hx) rfl
  have halone : StartsAlone .fresh (registering 0 {}) := fun _ _ _ _ hx => nomatch hx
  have hcounted : StartsAlone (Served.fresh.next (registering 0 {})) (registering 1000 {}) := by
    intro rule _ hfind
    exact absurd hfind (by decide +kernel)
  constructor
  · exact (rateLimit_holds_when _).1
      (.next (.next .fresh (fun _ hx => nomatch hx) ⟨rfl, halone⟩)
        (until_fresh_next (Nat.zero_le _)) ⟨rfl, hcounted⟩)
  · refine (rateLimit_holds_when _).2 hfirst
      ⟨0, 0, registration "/", {}⟩
      (until_fresh_next le_rfl) rfl fun hall => ?_
    have hrecent := hall ⟨"POST", "/api/tenants/register", 5⟩ (by decide +kernel)
      (by decide +kernel) (registering 0 {}) (by
        exact Served.mem_admitted.mpr ⟨_, List.mem_cons_self, by decide +kernel, rfl,
          by decide +kernel⟩)
    exact absurd hrecent (by decide)

/-- A registration late in the life of its counter, and five right after it. -/
theorem not_rateLimit_holds :
    ¬ ∀ s, Reached Available s → ∀ client, ∀ rule ∈ routeLimits,
      Window.Bounded window rule.limit (s.admittedTimes client rule) := by
  intro hall
  have hlate : Reached Available
      ((Served.fresh.next (registering 0 {})).next (registering 59000 {})) :=
    .next (.next .fresh (fun _ hx => nomatch hx) rfl) (until_fresh_next (Nat.zero_le _)) rfl
  have huntil : ((Served.fresh.next (registering 0 {})).next (registering 59000 {})).Until
      61000 := by
    intro x hx
    rcases List.mem_cons.mp hx with rfl | hx
    · show 59000 ≤ 61000
      decide
    · exact until_fresh_next (Nat.zero_le _) x hx
  have hreached := (hlate.repeated huntil rfl 5 : Reached Available
    (((Served.fresh.next (registering 0 {})).next (registering 59000 {})).repeated
      (registering 61000 {}) 5))
  have hbound := hall _ hreached "10.0.0.7" ⟨"POST", "/api/tenants/register", 5⟩ (by decide) 59000
  exact absurd hbound (by decide +kernel)

end WorkflowEngine.RateLimit

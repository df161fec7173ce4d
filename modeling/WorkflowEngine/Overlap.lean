import WorkflowEngine.Lib.Lifetimes
import WorkflowEngine.RateLimit

/-!
# The rate limit and requests that overlap

The three commands on Redis are sent one by one, and at each `await` other requests go on: those
of the same process and of all others that share the server.  A `Pending` is a request at the
command that it sends next, and `Limiter.step` lets the server carry out one command.  A command
may raise, before or after the server has carried it out, and a request may be cancelled.

`dispatch` is a request that runs alone.
-/

namespace WorkflowEngine.RateLimit

open Py

/-- The commands that are sent. -/
inductive Command where
  | incr
  | expire
  | ttl

/-- Where a request stands. -/
inductive Stage where
  | incr
  | expire
  | ttl (current : Nat)
  /-- The `try` block is left with the number and the seconds. -/
  | judged (current : Nat) (ttl : Int)
  /-- The command has raised, carried out or not, and the request is let through. -/
  | failed (command : Command) (carried : Bool)
  /-- The request was cancelled at the command. -/
  | gone (command : Command) (carried : Bool)

/-- A request, with `now` of the code. -/
structure Pending where
  request : Request
  clock : Int
  stage : Stage

/-- The outcome for the request, when there is one. -/
def Pending.verdict (p : Pending) : Option Verdict :=
  match p.stage with
  | .judged current ttl =>
    if p.request.limit < current then
      some (.response 429
        (createErrorResponse "RATE_LIMIT_EXCEEDED" "Too many requests. Please try again later." [])
        [("X-RateLimit-Limit", toString p.request.limit), ("X-RateLimit-Remaining", "0"),
          ("X-RateLimit-Reset", toString (p.clock + ttl)), ("Retry-After", toString ttl)])
    else
      some (.callNext [("X-RateLimit-Limit", toString p.request.limit),
        ("X-RateLimit-Remaining", toString (p.request.limit - current)),
        ("X-RateLimit-Reset", toString (p.clock + ttl))])
  | .failed _ _ =>
    some (.callNext [("X-RateLimit-Limit", toString p.request.limit),
      ("X-RateLimit-Remaining", toString p.request.limit),
      ("X-RateLimit-Reset", toString (p.clock + windowSeconds))])
  | _ => none

/-- Whether it is let through by its number. -/
def Pending.admitted (p : Pending) : Bool :=
  match p.stage with
  | .judged current _ => current ≤ p.request.limit
  | _ => false

/-- An `INCR` that the server has carried out, the request that it was for, and its answer. -/
structure Counted where
  index : Nat
  key : String
  count : Redis.Count

/-- The server, its clock and all requests so far.  The log says what the server has answered to
`INCR`, the latest first. -/
structure Limiter where
  store : Redis.Store String
  time : Redis.Time
  requests : List Pending
  log : List Counted

/-- What becomes of a command: something comes back of it, or the request is cancelled at its
`await`, and then the server may have carried the command out or not. -/
inductive Fate where
  | replied (reply : Reply)
  | cancelled (carried : Bool)

/-- What can happen next. -/
inductive Action where
  | arrive (request : Request) (clock : Int)
  | tick (elapsed : Nat)
  | send (i : Nat) (fate : Fate)

/-- Whether the server carries out the command. -/
def Fate.carried : Fate → Bool
  | .replied reply => reply.carried
  | .cancelled carried => carried

/-- Where the request stands then, if an answer would bring it to `next`. -/
def Fate.stage (command : Command) (next : Stage) : Fate → Stage
  | .replied .answered => next
  | .replied (.raised carried) => .failed command carried
  | .cancelled carried => .gone command carried

namespace Limiter

/-- A server without keys. -/
def initial (time : Redis.Time) : Limiter := ⟨.empty, time, [], []⟩

/-- The request `i` stands elsewhere now. -/
def put (s : Limiter) (i : Nat) (p : Pending) : Limiter :=
  { s with requests := s.requests.set i p }

/-- `INCR` for the request `i` is carried out: the answer, and the server after it. -/
def incr (s : Limiter) (i : Nat) (key : String) : Nat × Limiter :=
  let (current, store) := s.store.incr s.time key
  (current, { s with store := store, log := ⟨i, key, ⟨current, s.time⟩⟩ :: s.log })

/-- `EXPIRE` is carried out. -/
def expire (s : Limiter) (key : String) : Limiter :=
  { s with store := s.store.expire s.time key windowSeconds }

/-- The server carries out the command of the request `i`: the command, and where the request
stands when it has the answer. -/
def carryOut (s : Limiter) (i : Nat) (p : Pending) : Option (Command × Stage × Limiter) :=
  match p.stage with
  | .incr =>
    let (current, s) := s.incr i p.request.redisKey
    some (.incr, if current = 1 then .expire else .ttl current, s)
  | .expire => some (.expire, .ttl 1, s.expire p.request.redisKey)
  | .ttl current =>
    let ttl := s.store.ttl s.time p.request.redisKey
    some (.ttl, .judged current (if ttl < 0 then windowSeconds else ttl), s)
  | _ => none

/-- One step. -/
def step (s : Limiter) : Action → Option Limiter
  | .arrive request clock => some { s with requests := s.requests ++ [⟨request, clock, .incr⟩] }
  | .tick elapsed => some { s with time := s.time + elapsed }
  | .send i fate =>
    match s.requests[i]? with
    | none => none
    | some p =>
      match s.carryOut i p with
      | none => none
      | some (command, next, after) =>
        some ((if fate.carried then after else s).put i { p with stage := fate.stage command next })

/-- Several steps. -/
def run (s : Limiter) (actions : List Action) : Option Limiter := actions.foldlM step s

/-- What comes about with any requests, in any order of their commands. -/
def Reachable (s : Limiter) : Prop :=
  ∃ time, Relation.ReflTransGen (fun s s' => ∃ action, step s action = some s') (initial time) s

/-- The answers on a counter. -/
def counts (s : Limiter) (key : String) : List Redis.Count :=
  (s.log.filter (fun c => c.key = key)).map (·.count)

/-- Those of the requests that were let through by their number. -/
def admitted (s : Limiter) (key : String) : List Counted :=
  s.log.filter (fun c => c.key = key && (s.requests[c.index]?).any Pending.admitted)

end Limiter

/-! ## A request that runs alone -/

/-- The `try` block is left with the number and the seconds, or with an exception. -/
inductive Stage.Leaves : Option (Nat × Int) → Stage → Prop where
  | judged (current : Nat) (seconds : Int) :
      Leaves (some (current, seconds)) (.judged current seconds)
  | failed (command : Command) (carried : Bool) : Leaves none (.failed command carried)

/-- What `dispatch` makes of it. -/
theorem dispatch_verdict {arrival : Arrival} {store : Redis.Store String} {stage : Stage}
    (h : stage.Leaves (countRequest arrival.faults store arrival.time
      arrival.request.redisKey).1) :
    (⟨arrival.request, arrival.clock, stage⟩ : Pending).verdict =
      some (dispatch arrival store).1 := by
  unfold dispatch
  generalize countRequest arrival.faults store arrival.time arrival.request.redisKey = counted at h ⊢
  obtain ⟨outcome, store'⟩ := counted
  dsimp only at h
  cases h with
  | failed command carried => rfl
  | judged current seconds =>
    dsimp only [Pending.verdict]
    split
    · rfl
    · rfl

namespace Limiter

variable {s s' : Limiter} {i : Nat} {p : Pending}

theorem lookup_put (hp : s.requests[i]? = some p) (p' : Pending) (j : Nat) :
    (s.put i p').requests[j]? = if j = i then some p' else s.requests[j]? := by
  have hlt := (List.getElem?_eq_some_iff.mp hp).1
  rw [put, List.getElem?_set]
  by_cases hj : i = j
  · rw [if_pos hj, if_pos hj.symm, if_pos hlt]
  · rw [if_neg hj, if_neg (Ne.symm hj)]

theorem carryOut_incr (i : Nat) (hstage : p.stage = .incr) : s.carryOut i p =
    some (.incr, if (s.incr i p.request.redisKey).1 = 1 then .expire
      else .ttl (s.incr i p.request.redisKey).1, (s.incr i p.request.redisKey).2) := by
  rw [carryOut, hstage]

theorem run_cons (action : Action) (actions : List Action) (s : Limiter) :
    s.run (action :: actions) = (s.step action).bind fun s => s.run actions := List.foldlM_cons

/-- The request `i` can leave the `try` block so, while nothing comes in between. -/
def Alone (i : Nat) (s : Limiter) (p : Pending)
    (left : Option (Nat × Int) × Redis.Store String) : Prop :=
  s.requests[i]? = some p → ∃ (fates : List Fate) (s' : Limiter) (stage : Stage),
    s.run (fates.map (Action.send i)) = some s' ∧ s'.store = left.2 ∧ stage.Leaves left.1 ∧
      s'.requests[i]? = some { p with stage := stage }

theorem carryOut_requests {command : Command} {next : Stage} {after : Limiter}
    (hcarry : s.carryOut i p = some (command, next, after)) : after.requests = s.requests := by
  rw [carryOut] at hcarry
  split at hcarry
  · cases hcarry
    rfl
  · cases hcarry
    rfl
  · cases hcarry
    rfl
  · cases hcarry

/-- A command raises, and the server may have carried it out. -/
theorem Alone.raised {command : Command} {next : Stage} {after : Limiter}
    (hcarry : s.carryOut i p = some (command, next, after)) (carried : Bool) :
    Alone i s p (none, if carried then after.store else s.store) := by
  intro hp
  let reached := if carried then after else s
  have hrequests : reached.requests = s.requests := by
    cases carried with
    | true => exact carryOut_requests hcarry
    | false => rfl
  refine ⟨[.replied (.raised carried)], reached.put i { p with stage := .failed command carried },
    .failed command carried, ?_, ?_, .failed command carried, ?_⟩
  · rw [List.map_singleton, run_cons, step, hp]
    dsimp only
    rw [hcarry]
    rfl
  · cases carried with
    | true => rfl
    | false => rfl
  · rw [lookup_put (hrequests ▸ hp), if_pos rfl]

theorem Alone.answered {command : Command} {next : Stage} {after : Limiter}
    {left : Option (Nat × Int) × Redis.Store String}
    (hcarry : s.carryOut i p = some (command, next, after))
    (hrest : Alone i (after.put i { p with stage := next }) { p with stage := next } left) :
    Alone i s p left := by
  intro hp
  have hself : (after.put i { p with stage := next }).requests[i]? =
      some { p with stage := next } := by
    rw [lookup_put ((carryOut_requests hcarry).symm ▸ hp), if_pos rfl]
  obtain ⟨fates, s', stage, hrun, hrest⟩ := hrest hself
  refine ⟨.replied .answered :: fates, s', stage, ?_, hrest⟩
  rw [List.map_cons, run_cons, step, hp]
  dsimp only
  rw [hcarry]
  exact hrun

/-- `TTL`, and the `try` block is left. -/
theorem alone_ttl {current : Nat} (hstage : p.stage = .ttl current) (reply : Reply) :
    Alone i s p (askTtl reply s.store s.time p.request.redisKey current) := by
  have hcarry : s.carryOut i p = some (.ttl, .judged current
      (if s.store.ttl s.time p.request.redisKey < 0 then (windowSeconds : Int)
        else s.store.ttl s.time p.request.redisKey), s) := by
    rw [carryOut, hstage]
  cases reply with
  | raised carried =>
    have hraised := Alone.raised (s := s) hcarry carried
    rw [ite_self] at hraised
    exact hraised
  | answered =>
    refine Alone.answered hcarry fun hself => ?_
    exact ⟨[], _, _, rfl, rfl, .judged current _, hself⟩

/-- A request that nothing comes in between of leaves the `try` block as in `countRequest`. -/
theorem alone_countRequest (hstage : p.stage = .incr) (faults : Faults) :
    Alone i s p (countRequest faults s.store s.time p.request.redisKey) := by
  obtain ⟨incr, expire, ttl⟩ := faults
  cases incr with
  | raised carried => exact Alone.raised (s := s) (carryOut_incr i hstage) carried
  | answered =>
    refine Alone.answered (carryOut_incr i hstage) ?_
    have hcurrent : (s.incr i p.request.redisKey).1 = (s.store.incr s.time p.request.redisKey).1 := rfl
    by_cases hone : (s.incr i p.request.redisKey).1 = 1
    · rw [if_pos hone]
      rw [hcurrent] at hone
      cases expire with
      | raised carried =>
        have hcount : countRequest ⟨.answered, .raised carried, ttl⟩ s.store s.time
            p.request.redisKey = (none, if carried then
              (s.store.incr s.time p.request.redisKey).2.expire s.time p.request.redisKey
                windowSeconds
              else (s.store.incr s.time p.request.redisKey).2) := by
          simp [countRequest, hone, Reply.carried, Reply.raises]
        rw [hcount]
        exact Alone.raised (s := (s.incr i p.request.redisKey).2.put i { p with stage := .expire })
          (p := { p with stage := .expire }) rfl carried
      | answered =>
        have hcount : countRequest ⟨.answered, .answered, ttl⟩ s.store s.time
            p.request.redisKey = askTtl ttl ((s.store.incr s.time p.request.redisKey).2.expire
              s.time p.request.redisKey windowSeconds) s.time p.request.redisKey 1 := by
          simp [countRequest, hone, Reply.carried, Reply.raises]
        rw [hcount]
        refine Alone.answered rfl ?_
        exact alone_ttl (s := (((s.incr i p.request.redisKey).2.put i
          { p with stage := .expire }).expire p.request.redisKey).put i { p with stage := .ttl 1 })
          (p := { p with stage := .ttl 1 }) rfl ttl
    · rw [if_neg hone]
      have hcount : countRequest ⟨.answered, expire, ttl⟩ s.store s.time p.request.redisKey =
          askTtl ttl (s.store.incr s.time p.request.redisKey).2 s.time p.request.redisKey
            (s.store.incr s.time p.request.redisKey).1 := by
        rw [hcurrent] at hone
        simp [countRequest, hone, Reply.carried, Reply.raises]
      rw [hcount]
      exact alone_ttl (s := (s.incr i p.request.redisKey).2.put i
        { p with stage := .ttl (s.incr i p.request.redisKey).1 })
        (p := { p with stage := .ttl (s.incr i p.request.redisKey).1 }) rfl ttl

/-- `dispatch` is a request that nothing comes in between of. -/
theorem dispatch_alone (s : Limiter) (arrival : Arrival) (htime : arrival.time = s.time) :
    ∃ (fates : List Fate) (s' : Limiter),
      s.run (.arrive arrival.request arrival.clock :: fates.map (.send s.requests.length)) = some s' ∧
        s'.store = (dispatch arrival s.store).2 ∧
        s'.requests[s.requests.length]?.bind Pending.verdict = some (dispatch arrival s.store).1 := by
  have hlast : (s.requests ++ [⟨arrival.request, arrival.clock, .incr⟩])[s.requests.length]? =
      some ⟨arrival.request, arrival.clock, .incr⟩ := List.getElem?_concat_length
  obtain ⟨fates, s', stage, hrun, hstore, hleaves, hstands⟩ :=
    alone_countRequest (i := s.requests.length)
      (s := { s with requests := s.requests ++ [⟨arrival.request, arrival.clock, .incr⟩] }) rfl
      arrival.faults hlast
  dsimp only at hstore hleaves
  rw [← htime] at hstore hleaves
  refine ⟨fates, s', hrun, ?_, ?_⟩
  · rw [hstore, dispatch_store]
  · rw [hstands]
    exact dispatch_verdict hleaves

end Limiter

/-! ## What the log says of the requests -/

/-- What is known of the number at a stage. -/
def Stage.Knows (number : Nat) : Stage → Prop
  | .incr => False
  | .expire => number = 1
  | .ttl current => number = current
  | .judged current _ => number = current
  | .failed _ _ => True
  | .gone _ _ => True

/-- The request has its number. -/
def Stage.Counted : Stage → Prop
  | .expire => True
  | .ttl _ => True
  | .judged _ _ => True
  | _ => False

/-- Whether a counter that the request has begun may be left without its expiry, when the request
is left at the command. -/
def Command.unset (carried : Bool) : Command → Bool
  | .incr => true
  | .expire => !carried
  | .ttl => false

/-- If the request has begun a counter, then its `EXPIRE` was not carried out. -/
def Stage.owes : Stage → Bool
  | .expire => true
  | .failed command carried => command.unset carried
  | .gone command carried => command.unset carried
  | _ => false

/-- The seconds that the headers speak of lie in the window. -/
def Stage.InWindow : Stage → Prop
  | .judged _ seconds => 0 ≤ seconds ∧ seconds ≤ windowSeconds
  | _ => True

/-- Without an answer the request has failed at the command, or is gone. -/
theorem Fate.stage_cases {command : Command} {next : Stage} (fate : Fate) :
    fate.carried = true ∧ fate.stage command next = next ∨
      fate.stage command next = .failed command fate.carried ∨
        fate.stage command next = .gone command fate.carried := by
  cases fate with
  | replied reply =>
    cases reply with
    | answered => exact .inl ⟨rfl, rfl⟩
    | raised carried => exact .inr (.inl rfl)
  | cancelled carried => exact .inr (.inr rfl)

/-- Such a request says nothing of its number. -/
theorem Stage.of_lost {stage : Stage} {command : Command} {carried : Bool}
    (h : stage = .failed command carried ∨ stage = .gone command carried) :
    (∀ n, stage.Knows n) ∧ ¬ stage.Counted ∧ stage.InWindow ∧
      stage.owes = command.unset carried := by
  rcases h with rfl | rfl
  · exact ⟨fun _ => trivial, id, trivial, rfl⟩
  · exact ⟨fun _ => trivial, id, trivial, rfl⟩

namespace Limiter

/-- The log and the counters go with the requests. -/
structure Sound (s : Limiter) : Prop where
  logged : ∀ c ∈ s.log, ∃ p, s.requests[c.index]? = some p ∧ p.request.redisKey = c.key ∧
    p.stage.Knows c.count.number
  counted : ∀ i p, s.requests[i]? = some p → p.stage.Counted → i ∈ s.log.map (·.index)
  inWindow : ∀ (i : Nat) p, s.requests[i]? = some p → p.stage.InWindow
  once : (s.log.map (·.index)).Nodup
  follows : ∀ key, Redis.Follows window s.time (s.store key) (s.counts key)
  /-- A counter that does not expire was begun by a request whose `EXPIRE` was not carried out. -/
  owed : ∀ key n, s.store key = some ⟨n, none⟩ → ∃ c ∈ s.log, c.key = key ∧ c.count.number = 1 ∧
    ∃ p, s.requests[c.index]? = some p ∧ p.stage.owes = true

theorem sound_initial (time : Redis.Time) : (initial time).Sound where
  logged := fun c hc => absurd hc List.not_mem_nil
  counted := by simp [initial]
  inWindow := by simp [initial]
  once := List.nodup_nil
  follows := fun _ => rfl
  owed := fun key n hstored => by cases hstored

variable {s s' : Limiter} {i : Nat} {p : Pending}

/-- A request comes. -/
theorem Sound.arrive (h : s.Sound) (request : Request) (clock : Int) :
    ({ s with requests := s.requests ++ [⟨request, clock, .incr⟩] } : Limiter).Sound := by
  have hkept : ∀ (j : Nat) (p : Pending), s.requests[j]? = some p →
      (s.requests ++ [⟨request, clock, .incr⟩])[j]? = some p := by
    intro j p hp
    rw [List.getElem?_append_left (List.getElem?_eq_some_iff.mp hp).1]
    exact hp
  have hcases : ∀ (j : Nat) (p : Pending), (s.requests ++ [⟨request, clock, .incr⟩])[j]? = some p →
      s.requests[j]? = some p ∨ p.stage = .incr := by
    intro j p hp
    rw [List.getElem?_append] at hp
    split at hp
    · exact .inl hp
    · obtain rfl := List.mem_singleton.mp (List.mem_of_getElem? hp)
      exact .inr rfl
  refine ⟨fun c hc => ?_, fun j p hp hcounted => ?_, fun j p hp => ?_, h.once, h.follows,
    fun key n hstored => ?_⟩
  · obtain ⟨p, hp, hlogged⟩ := h.logged c hc
    exact ⟨p, hkept _ p hp, hlogged⟩
  · rcases hcases j p hp with hp | hstage
    · exact h.counted j p hp hcounted
    · rw [hstage] at hcounted
      exact hcounted.elim
  · rcases hcases j p hp with hp | hstage
    · exact h.inWindow j p hp
    · rw [hstage]
      trivial
  · obtain ⟨c, hc, hkey, hnumber, p, hp, howes⟩ := h.owed key n hstored
    exact ⟨c, hc, hkey, hnumber, p, hkept _ p hp, howes⟩

theorem Sound.tick (h : s.Sound) (elapsed : Nat) :
    ({ s with time := s.time + elapsed } : Limiter).Sound where
  logged := h.logged
  counted := h.counted
  inWindow := h.inWindow
  once := h.once
  follows := fun key => (h.follows key).mono (Nat.le_add_right s.time elapsed)
  owed := h.owed

/-- A request goes on, and the server does nothing. -/
theorem Sound.put (h : s.Sound) (hp : s.requests[i]? = some p) {stage : Stage}
    (hknows : ∀ n, p.stage.Knows n → stage.Knows n) (hcounted : stage.Counted → p.stage.Counted)
    (hwithin : stage.InWindow)
    (howes : (∃ n, s.store p.request.redisKey = some ⟨n, none⟩) →
      p.stage.owes = true → stage.owes = true) :
    (s.put i { p with stage := stage }).Sound := by
  refine ⟨fun c hc => ?_, fun j p' hp' hcounted' => ?_, fun j p' hp' => ?_, h.once, h.follows,
    fun key n hstored => ?_⟩
  · obtain ⟨p', hp', hkey, hknown⟩ := h.logged c hc
    rw [lookup_put hp]
    by_cases hi : c.index = i
    · rw [hi, hp] at hp'
      cases hp'
      exact ⟨_, if_pos hi, hkey, hknows _ hknown⟩
    · exact ⟨p', (if_neg hi).trans hp', hkey, hknown⟩
  · rw [lookup_put hp] at hp'
    split at hp'
    · rename_i hj
      cases hp'
      exact hj ▸ h.counted i p hp (hcounted hcounted')
    · exact h.counted j p' hp' hcounted'
  · rw [lookup_put hp] at hp'
    split at hp'
    · cases hp'
      exact hwithin
    · exact h.inWindow j p' hp'
  · obtain ⟨c, hc, hkey, hnumber, p', hp', howes'⟩ := h.owed key n hstored
    refine ⟨c, hc, hkey, hnumber, ?_⟩
    rw [lookup_put hp]
    by_cases hi : c.index = i
    · obtain ⟨p'', hp'', hkey', -⟩ := h.logged c hc
      rw [hi, hp] at hp' hp''
      cases hp'
      cases hp''
      have hlasting : s.store p.request.redisKey = some ⟨n, none⟩ := by
        rw [hkey', hkey]
        exact hstored
      exact ⟨_, if_pos hi, howes ⟨n, hlasting⟩ howes'⟩
    · exact ⟨p', (if_neg hi).trans hp', howes'⟩

theorem counts_incr_self (i : Nat) (key : String) :
    (s.incr i key).2.counts key = ⟨(s.store.incr s.time key).1, s.time⟩ :: s.counts key := by
  have hlog : (s.incr i key).2.log = ⟨i, key, ⟨(s.store.incr s.time key).1, s.time⟩⟩ :: s.log := rfl
  rw [counts, hlog, List.filter_cons_of_pos (by simp), List.map_cons, counts]

theorem counts_incr_ne (i : Nat) {key key' : String} (hkey : key' ≠ key) :
    (s.incr i key).2.counts key' = s.counts key' := by
  have hlog : (s.incr i key).2.log = ⟨i, key, ⟨(s.store.incr s.time key).1, s.time⟩⟩ :: s.log := rfl
  rw [counts, hlog, List.filter_cons_of_neg (fun heq => hkey (of_decide_eq_true heq).symm), counts]

/-- `INCR` is carried out, whatever becomes of the request. -/
theorem Sound.incr (h : s.Sound) (hp : s.requests[i]? = some p) (hstage : p.stage = .incr)
    {stage : Stage} (hwithin : stage.InWindow) (hknows : stage.Knows (s.incr i p.request.redisKey).1)
    (howes : (s.incr i p.request.redisKey).1 = 1 → stage.owes = true) :
    ((s.incr i p.request.redisKey).2.put i { p with stage := stage }).Sound := by
  generalize hkey : p.request.redisKey = key at hknows howes ⊢
  have hlookup := fun j => lookup_put (s := (s.incr i key).2) hp { p with stage := stage } j
  have hself : ((s.incr i key).2.put i { p with stage := stage }).requests[i]? =
      some { p with stage := stage } := (hlookup i).trans (if_pos rfl)
  -- it has no number so far
  have hnew : ∀ c ∈ s.log, c.index ≠ i := by
    intro c hc hi
    obtain ⟨p', hp', -, hknown⟩ := h.logged c hc
    rw [hi, hp] at hp'
    cases hp'
    rw [hstage] at hknown
    exact hknown
  have hother : ∀ c ∈ s.log, ((s.incr i key).2.put i { p with stage := stage }).requests[c.index]? =
      s.requests[c.index]? := fun c hc => (hlookup c.index).trans (if_neg (hnew c hc))
  refine ⟨fun c hc => ?_, fun j p' hp' hcounted' => ?_, fun j p' hp' => ?_, ?_, fun key' => ?_,
    fun key' n hstored => ?_⟩
  · rcases List.mem_cons.mp hc with rfl | hc
    · exact ⟨_, hself, hkey, hknows⟩
    · rw [hother c hc]
      exact h.logged c hc
  · rw [hlookup] at hp'
    split at hp'
    · rename_i hj
      exact List.mem_cons.mpr (.inl hj)
    · exact List.mem_cons_of_mem _ (h.counted j p' hp' hcounted')
  · rw [hlookup] at hp'
    split at hp'
    · cases hp'
      exact hwithin
    · exact h.inWindow j p' hp'
  · refine List.nodup_cons.mpr ⟨fun hi => ?_, h.once⟩
    obtain ⟨c, hc, hi⟩ := List.mem_map.mp hi
    exact hnew c hc hi
  · by_cases hkey' : key' = key
    · rw [hkey']
      have hfollows := (h.follows key).incr
      rw [← counts_incr_self i key] at hfollows
      exact hfollows
    · have hfollows := h.follows key'
      have hstore : (s.incr i key).2.store key' = s.store key' := Redis.Store.incr_ne s.time hkey'
      rw [← counts_incr_ne i hkey', ← hstore] at hfollows
      exact hfollows
  · have hold : (∃ before, s.store key' = some ⟨before, none⟩) → ∃ c ∈ (s.incr i key).2.log,
        c.key = key' ∧ c.count.number = 1 ∧ ∃ p', ((s.incr i key).2.put i
          { p with stage := stage }).requests[c.index]? = some p' ∧ p'.stage.owes = true := by
      rintro ⟨before, hbefore⟩
      obtain ⟨c, hc, howner⟩ := h.owed key' before hbefore
      rw [← hother c hc] at howner
      exact ⟨c, List.mem_cons_of_mem _ hc, howner⟩
    by_cases hkey' : key' = key
    · rw [hkey'] at hstored
      rcases Redis.Store.incr_lasting hstored with hone | hbefore
      · exact ⟨_, List.mem_cons_self, hkey'.symm, hone, _, hself, howes hone⟩
      · exact hold (hkey' ▸ hbefore)
    · exact hold ⟨n, (Redis.Store.incr_ne s.time hkey').symm.trans hstored⟩

/-- `EXPIRE` is carried out: the counter expires. -/
theorem Sound.expire (h : s.Sound) (key : String) : (s.expire key).Sound := by
  refine ⟨h.logged, h.counted, h.inWindow, h.once, fun key' => ?_, fun key' n hstored => ?_⟩
  · by_cases hkey : key' = key
    · exact hkey ▸ (h.follows key).expire
    · have hstore : (s.expire key).store key' = s.store key' :=
        Redis.Store.expire_ne s.time windowSeconds hkey
      exact hstore ▸ h.follows key'
  · by_cases hkey : key' = key
    · exact absurd (hkey ▸ hstored) (Redis.Store.expire_not_lasting s.store s.time key windowSeconds n)
    · exact h.owed key' n ((Redis.Store.expire_ne s.time windowSeconds hkey).symm.trans hstored)

/-- What is left of the window when the counter goes with its answers. -/
theorem ttl_inWindow {now : Nat} {store : Redis.Store String} {key : String}
    {counts : List Redis.Count} (h : Redis.Follows window now (store key) counts) (current : Nat) :
    (Stage.judged current
      (if store.ttl now key < 0 then windowSeconds else store.ttl now key)).InWindow := by
  by_cases hneg : store.ttl now key < 0
  · rw [if_pos hneg]
    exact ⟨by decide, Int.le_refl _⟩
  · rw [if_neg hneg]
    exact ⟨Int.not_lt.mp hneg, Redis.Store.ttl_le fun record t hstored ht => h.expireAt_le hstored ht⟩

/-- A request ends without an answer. -/
theorem Sound.lose (h : s.Sound) (hp : s.requests[i]? = some p) {stage : Stage}
    {command : Command} {carried : Bool}
    (hlost : stage = .failed command carried ∨ stage = .gone command carried)
    (howes : (∃ n, s.store p.request.redisKey = some ⟨n, none⟩) → p.stage.owes = true →
      command.unset carried = true) : (s.put i { p with stage := stage }).Sound := by
  obtain ⟨hknows, hcounted, hwithin, howed⟩ := Stage.of_lost hlost
  refine h.put hp (fun n _ => hknows n) (fun hc => absurd hc hcounted) hwithin fun hlasting hold => ?_
  rw [howed]
  exact howes hlasting hold

/-- `INCR`, whatever becomes of it. -/
theorem Sound.sendIncr (h : s.Sound) (hp : s.requests[i]? = some p) (hstage : p.stage = .incr)
    (fate : Fate) :
    ((if fate.carried then (s.incr i p.request.redisKey).2 else s).put i { p with
      stage := fate.stage .incr (if (s.incr i p.request.redisKey).1 = 1 then .expire
        else .ttl (s.incr i p.request.redisKey).1) }).Sound := by
  rcases fate.stage_cases with ⟨hcarried, hanswered⟩ | hlost
  · rw [hanswered, if_pos hcarried]
    refine h.incr hp hstage ?_ ?_ fun hone => ?_
    · split <;> trivial
    · split
      · rename_i hone
        exact hone
      · rfl
    · rw [if_pos hone]
      rfl
  · cases hcarried : fate.carried with
    | true =>
      obtain ⟨hknows, -, hwithin, howed⟩ := Stage.of_lost hlost
      rw [if_pos rfl]
      exact h.incr hp hstage hwithin (hknows _) fun _ => howed
    | false =>
      rw [if_neg Bool.false_ne_true]
      exact h.lose hp hlost fun _ _ => rfl

/-- `EXPIRE`, whatever becomes of it. -/
theorem Sound.sendExpire (h : s.Sound) (hp : s.requests[i]? = some p) (hstage : p.stage = .expire)
    (fate : Fate) :
    ((if fate.carried then s.expire p.request.redisKey else s).put i
      { p with stage := fate.stage .expire (.ttl 1) }).Sound := by
  have hset : ¬ ∃ n, (s.expire p.request.redisKey).store p.request.redisKey = some ⟨n, none⟩ := by
    rintro ⟨n, hlasting⟩
    exact Redis.Store.expire_not_lasting s.store s.time p.request.redisKey windowSeconds n hlasting
  rcases fate.stage_cases with ⟨hcarried, hanswered⟩ | hlost
  · rw [hanswered, if_pos hcarried]
    refine (h.expire p.request.redisKey).put hp (fun n hknown => ?_) (fun _ => ?_) trivial
      fun hlasting => absurd hlasting hset
    · rw [hstage] at hknown
      exact hknown
    · rw [hstage]
      trivial
  · cases hcarried : fate.carried with
    | true =>
      rw [if_pos rfl]
      exact (h.expire p.request.redisKey).lose hp hlost fun hlasting => absurd hlasting hset
    | false =>
      rw [if_neg Bool.false_ne_true]
      rw [hcarried] at hlost
      exact h.lose hp hlost fun _ _ => rfl

/-- `TTL`, whatever becomes of it. -/
theorem Sound.sendTtl (h : s.Sound) (hp : s.requests[i]? = some p) {current : Nat}
    (hstage : p.stage = .ttl current) (fate : Fate) :
    (s.put i { p with stage := fate.stage .ttl (.judged current
      (if s.store.ttl s.time p.request.redisKey < 0 then windowSeconds
        else s.store.ttl s.time p.request.redisKey)) }).Sound := by
  -- the counter is not its to set any more
  have hpaid : p.stage.owes ≠ true := by
    rw [hstage]
    exact Bool.false_ne_true
  rcases fate.stage_cases with ⟨-, hanswered⟩ | hlost
  · rw [hanswered]
    refine h.put hp (fun n hknown => ?_) (fun _ => ?_) ?_ fun _ howes => absurd howes hpaid
    · rw [hstage] at hknown
      exact hknown
    · rw [hstage]
      trivial
    · exact ttl_inWindow (h.follows p.request.redisKey) current
  · exact h.lose hp hlost fun _ howes => absurd howes hpaid

/-- One command, whatever becomes of it. -/
theorem Sound.send (h : s.Sound) (hp : s.requests[i]? = some p) {command : Command} {next : Stage}
    {after : Limiter} (hcarry : s.carryOut i p = some (command, next, after)) (fate : Fate) :
    ((if fate.carried then after else s).put i
      { p with stage := fate.stage command next }).Sound := by
  cases hstage : p.stage with
  | incr =>
    rw [carryOut_incr i hstage, Option.some.injEq, Prod.mk.injEq, Prod.mk.injEq] at hcarry
    obtain ⟨rfl, rfl, rfl⟩ := hcarry
    exact h.sendIncr hp hstage fate
  | expire =>
    rw [carryOut, hstage] at hcarry
    cases hcarry
    exact h.sendExpire hp hstage fate
  | ttl current =>
    rw [carryOut, hstage] at hcarry
    cases hcarry
    rw [ite_self]
    exact h.sendTtl hp hstage fate
  | judged current seconds =>
    rw [carryOut, hstage] at hcarry
    cases hcarry
  | failed command carried =>
    rw [carryOut, hstage] at hcarry
    cases hcarry
  | gone command carried =>
    rw [carryOut, hstage] at hcarry
    cases hcarry

theorem Sound.step (h : s.Sound) {action : Action} (hstep : s.step action = some s') :
    s'.Sound := by
  cases action with
  | arrive request clock =>
    cases hstep
    exact h.arrive request clock
  | tick elapsed =>
    cases hstep
    exact h.tick elapsed
  | send i fate =>
    rw [Limiter.step] at hstep
    split at hstep
    · cases hstep
    · rename_i p hp
      split at hstep
      · cases hstep
      · rename_i command next after hcarry
        cases hstep
        exact h.send hp hcarry fate

theorem Reachable.sound (h : Reachable s) : s.Sound := by
  obtain ⟨time, hrun⟩ := h
  induction hrun with
  | refl => exact sound_initial time
  | tail _ hstep ih =>
    obtain ⟨action, hstep⟩ := hstep
    exact ih.step hstep

theorem Reachable.run (h : Reachable s) {actions : List Action} (hrun : s.run actions = some s') :
    Reachable s' := by
  induction actions generalizing s with
  | nil =>
    cases hrun
    exact h
  | cons action actions ih =>
    rw [run_cons] at hrun
    obtain ⟨next, hstep, hrun⟩ := Option.bind_eq_some_iff.mp hrun
    obtain ⟨time, hsteps⟩ := h
    exact ih ⟨time, hsteps.tail ⟨action, hstep⟩⟩ hrun

/-! ## At most twice the limit -/

/-- The number of a request that is let through is up to the limit of its key. -/
theorem Sound.number_le (h : s.Sound) {request : Request} {c : Counted}
    (hc : c ∈ s.admitted request.redisKey) : c.count.number ≤ request.limit := by
  obtain ⟨hc, hselected⟩ := List.mem_filter.mp hc
  obtain ⟨hkey, hany⟩ := Bool.and_eq_true_iff.mp hselected
  obtain ⟨p, hp, hadmitted⟩ := (Option.any_eq_true _ _).mp hany
  obtain ⟨p', hp', hkey', hknown⟩ := h.logged c hc
  cases hp.symm.trans hp'
  obtain ⟨-, hmethod, hpath⟩ := Request.redisKey_inj (hkey'.trans (of_decide_eq_true hkey))
  rw [Pending.admitted] at hadmitted
  split at hadmitted
  · rename_i current seconds hstage
    rw [hstage] at hknown
    obtain rfl : c.count.number = current := hknown
    have hle := of_decide_eq_true hadmitted
    rw [Request.limit, hmethod, hpath] at hle
    exact hle
  · cases hadmitted

/-- In whatever order the commands of all requests are carried out, and whichever of them fail:
of the requests with one key that reach the server within a window, less than twice the limit
are let through by their number. -/
theorem admitted_of_reachable (h : s.Reachable) (request : Request) (opening : Redis.Time) :
    (∀ i p, s.requests[i]? = some p → p.request.redisKey = request.redisKey →
      p.admitted = true → ∃ c ∈ s.admitted request.redisKey, c.index = i) ∧
    (s.admitted request.redisKey).countP (fun c => opening ≤ c.count.time &&
      c.count.time ≤ opening + window) ≤ 2 * request.limit - 1 := by
  have hsound := h.sound
  refine ⟨fun i p hp hkey hadmitted => ?_, ?_⟩
  · have hcounted : p.stage.Counted := by
      rw [Pending.admitted] at hadmitted
      split at hadmitted
      · rename_i hstage
        rw [hstage]
        trivial
      · cases hadmitted
    obtain ⟨c, hc, rfl⟩ := List.mem_map.mp (hsound.counted i p hp hcounted)
    obtain ⟨p', hp', hkey', -⟩ := hsound.logged c hc
    cases hp.symm.trans hp'
    refine ⟨c, List.mem_filter.mpr ⟨hc, ?_⟩, rfl⟩
    rw [hp, Option.any_some, hadmitted, Bool.and_true]
    exact decide_eq_true (hkey'.symm.trans hkey)
  · have hle : (s.admitted request.redisKey).countP (fun c => opening ≤ c.count.time &&
        c.count.time ≤ opening + window) ≤ (s.counts request.redisKey).countP
          (Redis.Count.within window request.limit opening) := by
      rw [counts, List.countP_map, List.countP_filter, admitted, List.countP_filter]
      refine List.countP_mono_left fun c hc hcounted => ?_
      obtain ⟨hwindow, hselected⟩ := Bool.and_eq_true_iff.mp hcounted
      obtain ⟨hopening, hclosing⟩ := Bool.and_eq_true_iff.mp hwindow
      have hnumber := hsound.number_le (List.mem_filter.mpr ⟨hc, hselected⟩)
      exact Bool.and_eq_true_iff.mpr ⟨Redis.Count.within_iff.mpr
        ⟨of_decide_eq_true hopening, of_decide_eq_true hclosing, hnumber⟩,
        (Bool.and_eq_true_iff.mp hselected).1⟩
    have hfollows := hsound.follows request.redisKey
    generalize s.counts request.redisKey = counts at hle hfollows
    cases counts with
    | nil => exact Nat.le_trans hle (Nat.zero_le _)
    | cons last older =>
      obtain ⟨start, record, hlives, -⟩ := hfollows
      exact Nat.le_trans hle (hlives.countP_le request.limit opening)

/-- One registration, four more late in the life of its counter, and five when it is over.  The
commands of the last nine are carried out in turns. -/
def lateRegistrations : List Action :=
  let answered : Nat → Action := (.send · (.replied .answered))
  [.arrive (registration "") 0, answered 0, answered 0, .tick 60000] ++
    List.replicate 4 (.arrive (registration "") 60) ++ [1, 2, 3, 4].map answered ++ [.tick 1] ++
    List.replicate 5 (.arrive (registration "") 60) ++
    [5, 6, 7, 8, 9, 0, 1, 2, 3, 4, 6, 5, 7, 8, 9, 5].map answered

/-- The server after them. -/
def lateLimiter : Limiter := ((initial 0).run lateRegistrations).getD (initial 0)

theorem reachable_lateLimiter : Reachable lateLimiter := by
  have hrun : (initial 0).run lateRegistrations = some lateLimiter := by
    have hsome : ((initial 0).run lateRegistrations).isSome = true := by decide +kernel
    obtain ⟨s, hs⟩ := Option.isSome_iff_exists.mp hsome
    rw [lateLimiter, hs, Option.getD_some]
  have hinitial : Reachable (initial 0) := ⟨0, .refl⟩
  exact hinitial.run hrun

/-- Nine of them are let through within a window, where the limit is five. -/
theorem admitted_lateLimiter :
    (lateLimiter.admitted (registration "").redisKey).countP (fun c => 60000 ≤ c.count.time &&
      c.count.time ≤ 60000 + window) = 9 ∧
    (lateLimiter.admitted (registration "").redisKey).countP (fun c => 60000 ≤ c.count.time &&
      c.count.time ≤ 60000 + window) ≤ 2 * (registration "").limit - 1 :=
  ⟨by decide +kernel, (admitted_of_reachable reachable_lateLimiter (registration "") 60000).2⟩

/-! ## No counter stays for ever -/

/-- Of each request that has begun a counter under the key, the `EXPIRE` was carried out. -/
def Settled (s : Limiter) (key : String) : Prop :=
  ∀ c ∈ s.log, c.key = key → c.count.number = 1 → ∀ p, s.requests[c.index]? = some p →
    p.stage.owes = false

/-- The seconds that a response speaks of are those of a window at most, and once it is settled
a counter is gone after a window.  A counter without an expiry was begun by a request whose
`EXPIRE` was not carried out: it has not come to it, it has failed before, or it was cancelled
before. -/
theorem settled_of_reachable (h : s.Reachable) :
    (∀ (i : Nat) p current seconds, s.requests[i]? = some p → p.stage = .judged current seconds →
      0 ≤ seconds ∧ seconds ≤ windowSeconds) ∧
    (∀ key, s.Settled key → ∀ later, s.time + window < later →
      (s.store.incr later key).1 = 1) ∧
    ∀ key n, s.store key = some ⟨n, none⟩ → ∃ c ∈ s.log, c.key = key ∧ c.count.number = 1 ∧
      ∃ p, s.requests[c.index]? = some p ∧ p.stage.owes = true := by
  have hsound := h.sound
  refine ⟨fun i p current seconds hp hstage => ?_, fun key hsettled later hlater => ?_,
    hsound.owed⟩
  · have hwithin := hsound.inWindow i p hp
    rw [hstage] at hwithin
    exact hwithin
  · refine Redis.Store.incr_expired fun record hstored => ?_
    obtain ⟨value, expireAt⟩ := record
    cases expireAt with
    | none =>
      obtain ⟨c, hc, hkey, hnumber, p, hp, howes⟩ := hsound.owed key value hstored
      rw [hsettled c hc hkey hnumber p hp] at howes
      cases howes
    | some t =>
      have hbound := (hsound.follows key).expireAt_le hstored (t := t) rfl
      exact ⟨t, rfl, Nat.lt_of_le_of_lt hbound hlater⟩

/-- A registration whose `EXPIRE` is carried out, and raises since the reply is lost. -/
def lostReply : Limiter :=
  ((initial 0).run [.arrive (registration "") 0, .send 0 (.replied .answered),
    .send 0 (.replied (.raised true))]).getD (initial 0)

theorem reachable_lostReply : Reachable lostReply := by
  have hrun : (initial 0).run [.arrive (registration "") 0, .send 0 (.replied .answered),
      .send 0 (.replied (.raised true))] = some lostReply := rfl
  have hinitial : Reachable (initial 0) := ⟨0, .refl⟩
  exact hinitial.run hrun

/-- It has failed, and still its counter is gone after a window. -/
theorem settled_lostReply :
    lostReply.requests.map (·.stage) = [.failed .expire true] ∧
      (lostReply.store.incr (lostReply.time + window + 1) (registration "").redisKey).1 = 1 := by
  have hfailed : ∀ p ∈ lostReply.requests, p.stage.owes = false := by decide +kernel
  refine ⟨rfl, (settled_of_reachable reachable_lostReply).2.1 _ (fun c _ _ _ p hp => ?_) _
    (Nat.lt_succ_self _)⟩
  exact hfailed p (List.mem_of_getElem? hp)

end Limiter

end WorkflowEngine.RateLimit

import WorkflowEngine.Api
import WorkflowEngine.Appending
import WorkflowEngine.Isolation

/-!
# Access to the rows of a tenant

Behind the middleware a route works for the tenant of the API key.  So the rows of a tenant
are out of reach for every request that does not have its key: such requests, in any order and
from any clients, leave them as they are.  Only a webhook has no key, and it can add rows to
them.  A tenant that was disabled is as one whose key nobody has.
-/

namespace WorkflowEngine

open Py Orm Interact

/-! ## Public paths -/

/-- The lists differ where both have something. -/
def clashes (front text : List Char) : Bool := (front.zip text).any (fun c => c.1 ≠ c.2)

theorem isPrefixOf_of_clashes {front text : List Char} (h : clashes front text = true)
    (rest : List Char) : front.isPrefixOf (text ++ rest) = false := by
  induction front generalizing text with
  | nil => cases h
  | cons c front ih =>
    cases text with
    | nil => cases h
    | cons c' text =>
      rw [clashes, List.zip_cons_cons, List.any_cons, Bool.or_eq_true] at h
      rw [List.cons_append, List.isPrefixOf_cons_cons, Bool.and_eq_false_iff]
      rcases h with hne | hrest
      · exact .inl (beq_eq_false_iff_ne.mpr (of_decide_eq_true hne))
      · exact .inr (ih hrest)

theorem isPrefixOf_append {front text : List Char} (h : front.isPrefixOf text = true)
    (rest : List Char) : front.isPrefixOf (text ++ rest) = true := by
  rw [List.isPrefixOf_iff_prefix] at h ⊢
  exact h.trans (List.prefix_append text rest)

theorem isPublicPath_public {route : RoutePath} (h : route ∈ publicRoutes) (text : String) :
    isPublicPath (route.path text) = true := by
  have hall : ∀ route ∈ publicRoutes, publicPathPrefixes.any (fun front =>
      front.toList.isPrefixOf route.front.toList) = true := by decide
  rcases route.toList_path text with ⟨rest, hpath⟩
  rcases List.any_eq_true.mp (hall route h) with ⟨front, hfront, hstarts⟩
  refine List.any_eq_true.mpr ⟨front, hfront, ?_⟩
  rw [hpath]
  exact isPrefixOf_append hstarts rest

theorem isPublicPath_tenant {route : RoutePath} (h : route ∈ tenantRoutes) (text : String) :
    isPublicPath (route.path text) = false := by
  have hall : ∀ route ∈ tenantRoutes, publicPathPrefixes.all (fun front =>
      clashes front.toList route.front.toList) = true := by decide
  rcases route.toList_path text with ⟨rest, hpath⟩
  rw [isPublicPath, List.any_eq_false]
  intro front hfront hstarts
  rw [hpath, isPrefixOf_of_clashes (List.all_eq_true.mp (hall route h) front hfront) rest] at hstarts
  cases hstarts

/-- Whatever the client writes for an id, a path is exempt from authentication exactly if its
route does not read the tenant. -/
theorem isPublicPath_iff (call : RouteCall) (idText : String) :
    isPublicPath (call.path idText) = true ↔ ∀ tenantCall, call ≠ .ofTenant tenantCall := by
  unfold RouteCall.path
  constructor
  · rintro hpublic tenantCall rfl
    have hprotected := isPublicPath_tenant tenantCall.routePath_mem
      (RouteCall.text idText (.ofTenant tenantCall))
    rw [RouteCall.routePath, hprotected] at hpublic
    cases hpublic
  · exact fun h => isPublicPath_public (RouteCall.routePath_public h) (call.text idText)

/-! ## What a request does to the state -/

/-- The rows of the tenant that were there are there, and unchanged. -/
def OwnKept (tenantId : Uuid) (d d' : Database) : Prop :=
  ∀ table id row, FullRow.tenantId table id row = tenantId → d.row table id = some row →
    d'.row table id = some row

/-- The rows of the tenant are the same. -/
def OwnSame (tenantId : Uuid) (d d' : Database) : Prop :=
  ∀ table id row, FullRow.tenantId table id row = tenantId →
    (d'.row table id = some row ↔ d.row table id = some row)

theorem OwnSame.refl (tenantId : Uuid) (d : Database) : OwnSame tenantId d d :=
  fun _ _ _ _ => Iff.rfl

theorem OwnSame.trans {tenantId : Uuid} {d d' d'' : Database} (h : OwnSame tenantId d d')
    (h' : OwnSame tenantId d' d'') : OwnSame tenantId d d'' :=
  fun table id row htenant => (h' table id row htenant).trans (h table id row htenant)

theorem OwnSame.kept {tenantId : Uuid} {d d' : Database} (h : OwnSame tenantId d d') :
    OwnKept tenantId d d' := fun table id row htenant => (h table id row htenant).mpr

theorem OwnKept.trans {tenantId : Uuid} {d d' d'' : Database} (h : OwnKept tenantId d d')
    (h' : OwnKept tenantId d' d'') : OwnKept tenantId d d'' :=
  fun table id row htenant hrow => h' table id row htenant (h table id row htenant hrow)

theorem OthersKept.ownSame {tenantId other : Uuid} {d d' : Database} (h : OthersKept other d d')
    (hne : tenantId ≠ other) : OwnSame tenantId d d' :=
  fun table id row htenant => h table id row (htenant ▸ hne)

section

variable {bcrypt : Bcrypt} {libs : Libraries} {settings : Settings} {wire : Wire}
  {fromisoformat : String → Option Time} {rate : Nat → Nat → Json} {selfRegistrationEnabled : Bool}
  {s : Api} {incoming : Incoming}

/-- The state, but for the counters. -/
def Api.counting (s : Api) (counters : Redis.Store String) : Api := { s with counters := counters }

/-- The middleware lets a request through to its route with this tenant. -/
def Granted (bcrypt : Bcrypt) (s : Api) (incoming : Incoming) (tenant : Option TenantContext) :
    Prop :=
  match tenant with
  | none => ∀ call, incoming.request.call ≠ .ofTenant call
  | some tenant => (∃ call, incoming.request.call = .ofTenant call) ∧
      authenticate bcrypt s.tenants.table incoming.request.apiKey = .ok tenant

/-- A request is counted and turned away, or its route is called. -/
theorem Api.limited_state (s : Api) (incoming : Incoming) (tenant : Option TenantContext) :
    ∃ counters, (s.limited bcrypt libs settings wire fromisoformat rate selfRegistrationEnabled
        incoming tenant).2 = s.counting counters ∨
      (s.limited bcrypt libs settings wire fromisoformat rate selfRegistrationEnabled incoming
        tenant).2 = (Api.route bcrypt libs settings wire fromisoformat rate selfRegistrationEnabled
          (s.counting counters) incoming tenant incoming.request.call).2 := by
  unfold Api.limited
  split
  · rename_i counters _
    exact ⟨counters, .inl rfl⟩
  · rename_i counters _
    refine ⟨counters, .inr ?_⟩
    dsimp only
    split <;> rfl

/-- A request changes nothing, is counted, or is let through to its route. -/
theorem Api.respond_state (s : Api) (incoming : Incoming) :
    (s.respond bcrypt libs settings wire fromisoformat rate selfRegistrationEnabled incoming).2 =
        s ∨
      ∃ counters tenant, Granted bcrypt s incoming tenant ∧
        ((s.respond bcrypt libs settings wire fromisoformat rate selfRegistrationEnabled
            incoming).2 = s.counting counters ∨
          (s.respond bcrypt libs settings wire fromisoformat rate selfRegistrationEnabled
            incoming).2 = (Api.route bcrypt libs settings wire fromisoformat rate
              selfRegistrationEnabled (s.counting counters) incoming tenant
              incoming.request.call).2) := by
  have hpublic := isPublicPath_iff incoming.request.call incoming.request.idText
  by_cases hpath : isPublicPath incoming.request.path = true
  · right
    rw [Api.respond, if_pos hpath]
    rcases s.limited_state incoming none with ⟨counters, hstate⟩
    exact ⟨counters, none, hpublic.mp hpath, hstate⟩
  · rw [Api.respond, if_neg hpath]
    cases hauth : authenticate bcrypt s.tenants.table incoming.request.apiKey with
    | error reply => exact .inl rfl
    | ok tenant =>
      right
      rcases s.limited_state incoming (some tenant) with ⟨counters, hstate⟩
      refine ⟨counters, some tenant, ⟨?_, hauth⟩, hstate⟩
      by_contra hnone
      exact hpath (hpublic.mpr (not_exists.mp hnone))

/-! ## Keys -/

/-- A text that is accepted is the key of an active tenant. -/
theorem Tenants.Sound.validateApiKey_ok {tenants : Tenants} (hbcrypt : bcrypt.Documented)
    (h : tenants.Sound bcrypt) {apiKey : String} {tenant : TenantContext}
    (hok : validateApiKey bcrypt tenants.table apiKey = .ok tenant) :
    ∃ issued ∈ tenants.issued, issued.apiKey = apiKey ∧ issued.id = tenant.id ∧
      ∃ row, tenants.table.lookup tenant.id = some row ∧ row.isActive = true := by
  by_cases hfound : ∃ issued ∈ tenants.issued, issued.apiKey = apiKey
  · rcases hfound with ⟨issued, hissued, rfl⟩
    rcases h.validateApiKey_issued hbcrypt hissued with ⟨row, hrow, -, hvalidate⟩
    rw [hvalidate] at hok
    split at hok
    · rename_i hactive
      cases hok
      exact ⟨issued, hissued, rfl, rfl, row, hrow, hactive⟩
    · cases hok
  · rw [h.validateApiKey_other hbcrypt fun issued hissued hsame =>
      hfound ⟨issued, hissued, hsame⟩] at hok
    cases hok

theorem authenticate_ok {tenants : TenantTable} {apiKey : Option String} {tenant : TenantContext}
    (h : authenticate bcrypt tenants apiKey = .ok tenant) :
    ∃ text, apiKey = some text ∧ validateApiKey bcrypt tenants text = .ok tenant := by
  unfold authenticate at h
  split at h
  · cases h
  · rename_i hne
    cases hkey : validateApiKey bcrypt tenants (apiKey.getD "") with
    | error error =>
      rw [hkey] at h
      cases error <;> cases h
    | ok found =>
      rw [hkey] at h
      cases h
      cases apiKey with
      | none => exact absurd rfl hne
      | some text => exact ⟨text, rfl, hkey⟩

/-- The request does not come from this tenant: it does not have its key, or the tenant is not
active. -/
def Denied (s : Api) (issued : TenantWithKey) (incoming : Incoming) : Prop :=
  incoming.request.apiKey ≠ some issued.apiKey ∨
    ∀ row, s.tenants.table.lookup issued.id = some row → row.isActive = false

theorem Denied.ne_id (hbcrypt : bcrypt.Documented) (h : s.tenants.Sound bcrypt)
    {issued : TenantWithKey} (hissued : issued ∈ s.tenants.issued)
    (hdenied : Denied s issued incoming) {tenant : TenantContext}
    (hauth : authenticate bcrypt s.tenants.table incoming.request.apiKey = .ok tenant) :
    issued.id ≠ tenant.id := by
  rcases authenticate_ok hauth with ⟨text, htext, hvalidate⟩
  rcases h.validateApiKey_ok hbcrypt hvalidate with ⟨other, hother, rfl, hid, row, hrow, hactive⟩
  intro hsame
  obtain rfl := h.unique issued hissued other hother (hsame.trans hid.symm)
  rcases hdenied with hkey | hinactive
  · exact hkey htext
  · rw [hinactive row (hsame ▸ hrow)] at hactive
    cases hactive

/-! ## States -/

/-- What holds in every state of the application. -/
structure Api.Sound (bcrypt : Bcrypt) (libs : Libraries) (settings : Settings) (wire : Wire)
    (s : Api) : Prop where
  engine : Engine.Reachable libs settings wire s.engine
  logs : s.logs = ∅
  tenants : s.tenants.Sound bcrypt

theorem Api.Sound.database (h : s.Sound bcrypt libs settings wire) :
    s.database.Reachable libs settings wire := by
  refine ⟨⟨s.engine, h.engine, rfl⟩, fun id log hlog => ?_⟩
  have hnone : s.database.logs.lookup id = none := by
    show s.logs.lookup id = none
    rw [h.logs]
    exact AList.lookup_empty id
  rw [hnone] at hlog
  cases hlog

/-- What the cache hands to a webhook is offered by the engine. -/
def Incoming.Offered (s : Api) (incoming : Incoming) : Prop :=
  ∀ request, incoming.request.call = .receiveWebhook request →
    s.engine.Offers (.trigger (.webhook request))

/-! ## Routes -/

/-- A session that adds rows. -/
theorem ownKept_setRows {rows : Rows Row} (tenantId : Uuid)
    (hkept : ∀ k row, Rows.row s.engine.rows k = some row → Rows.row rows k = some row) :
    OwnKept tenantId s.database (s.setRows rows).database := by
  have hmap : ∀ (k : RowId) {β : Type} (f : Row k → β) (full : β),
      (Rows.row s.engine.rows k).map f = some full → (Rows.row rows k).map f = some full := by
    intro k β f full hfull
    rcases Option.map_eq_some_iff.mp hfull with ⟨row, hrow, rfl⟩
    rw [hkept k row hrow]
    rfl
  intro table id row _ hrow
  cases table with
  | tenants => exact hrow
  | executionLogs => exact hrow
  | workflows => exact hmap (.workflow id) _ row hrow
  | executions => exact hmap (.execution id) _ row hrow
  | stepExecutions => exact hmap (.step id) _ row hrow
  | webhookDeliveries => exact hmap (.delivery id) _ row hrow

/-- Rows that are added for one tenant are none of another. -/
theorem AddsRows.rowsKept {owner : Uuid} {t t' : Rows Row}
    (h : AddsRows owner (Rows.row t) (Rows.row t')) : RowsKept owner t t' := by
  refine fun k row hother => ⟨fun hrow => ?_, h.kept k row⟩
  cases hold : Rows.row t k with
  | none => exact absurd (h.added k row hold hrow) hother
  | some old => exact (h.kept k old hold).symm.trans hrow

/-- A route whose session runs as a trigger does. -/
theorem Api.session_after (s : Api) (incoming : Incoming) {m : Prog Response} (trigger : Trigger)
    (hhandle : ∀ w, ((trigger.handle libs settings wire (nesting libs settings performer
      incoming.session incoming.fuel) incoming.session).run w).2 = (m.run w).2) :
    (s.session incoming m).2 = s.setRows (s.engine.after incoming.surroundings.env
      ((Entry.trigger trigger).program libs settings wire incoming.session incoming.fuel)).rows := by
  show s.setRows _ = _
  rw [Engine.after, Entry.program, hhandle]

/-- The rows that a trigger adds through a route are of the tenant of the request. -/
theorem ownSame_trigger (h : s.Sound bcrypt libs settings wire) {tenantId requester : Uuid}
    (hne : tenantId ≠ requester) {m : Prog Response} (trigger : Trigger)
    (hrequester : trigger.requester = some requester)
    (hhandle : ∀ w, ((trigger.handle libs settings wire (nesting libs settings performer
      incoming.session incoming.fuel) incoming.session).run w).2 = (m.run w).2)
    (hoffers : s.engine.Offers (.trigger trigger)) :
    OwnSame tenantId s.database (s.session incoming m).2.database := by
  rcases h.engine.adds hoffers incoming.session incoming.fuel incoming.surroundings.env with
    ⟨owner, howner, hadds⟩
  obtain rfl := howner requester hrequester
  rw [s.session_after incoming trigger hhandle]
  exact (othersKept_of_rows hadds.rowsKept (fun _ _ _ _ => rfl) fun _ _ _ => Iff.rfl).ownSame hne

/-- A management route keeps its hands off everything but the tables of the rows. -/
theorem manage_frame (libs : Libraries) (settings : Settings)
    (fromisoformat : String → Option Time) (rate : Nat → Nat → Json) (surroundings : Surroundings)
    (d : Database) (tenantId : Uuid) (request : ManagementRequest) :
    let d' := (manage libs settings fromisoformat rate surroundings d tenantId request).2
    d'.tenants = d.tenants ∧ d'.createdAt = d.createdAt := by
  cases request with
  | createWorkflow body =>
    simp only [manage, manageCreate]
    split <;> exact ⟨rfl, rfl⟩
  | updateWorkflow workflowId body =>
    simp only [manage, manageUpdate]
    split <;> exact ⟨rfl, rfl⟩
  | deleteWorkflow workflowId =>
    simp only [manage, manageDelete]
    split <;> exact ⟨rfl, rfl⟩
  | _ => exact ⟨rfl, rfl⟩

theorem Api.database_setDatabase {d : Database} (htenants : d.tenants = s.tenants.table)
    (hcreated : d.createdAt = s.createdAt) : (s.setDatabase d).database = d := by
  show (⟨d.rows, d.details, s.createdAt, d.logs, s.tenants.table⟩ : Database) = d
  rw [← htenants, ← hcreated]

/-- A registration adds a tenant. -/
theorem ownSame_registerTenant (name : String) {tenantId : Uuid}
    (hregistered : tenantId ∈ s.tenants.table) :
    OwnSame tenantId s.database
      (registerTenantEndpoint bcrypt selfRegistrationEnabled s incoming name).2.database := by
  unfold registerTenantEndpoint
  split
  · split
    · rename_i table tenant hregister
      obtain ⟨-, hfresh, -, rfl⟩ := registerTenant_ok hregister
      intro table' id row htenant
      cases table' with
      | tenants =>
        have hne : id ≠ incoming.tenantId := by
          rintro rfl
          have hsame : incoming.tenantId = tenantId := htenant
          exact hfresh (hsame ▸ hregistered)
        show AList.lookup id (AList.insert incoming.tenantId _ s.tenants.table) = some row ↔ _
        rw [AList.lookup_insert_ne hne]
        rfl
      | _ => exact Iff.rfl
    · exact OwnSame.refl _ _
  · exact OwnSame.refl _ _

/-- A route that is called for another tenant leaves the rows as they are, but for the rows
that a webhook adds. -/
theorem Api.Sound.route_kept (h : s.Sound bcrypt libs settings wire) (hoffered : incoming.Offered s)
    {tenant : Option TenantContext} {tenantId : Uuid} (hregistered : tenantId ∈ s.tenants.table)
    (hother : ∀ context, tenant = some context → tenantId ≠ context.id) :
    let s' := (Api.route bcrypt libs settings wire fromisoformat rate selfRegistrationEnabled s
      incoming tenant incoming.request.call).2
    OwnKept tenantId s.database s'.database ∧
      ((∀ request, incoming.request.call ≠ .receiveWebhook request) →
        OwnSame tenantId s.database s'.database) := by
  have hsame : ∀ {d' : Database}, OwnSame tenantId s.database d' →
      OwnKept tenantId s.database d' ∧
        ((∀ request, incoming.request.call ≠ .receiveWebhook request) →
          OwnSame tenantId s.database d') := fun h => ⟨h.kept, fun _ => h⟩
  unfold Incoming.Offered at hoffered
  generalize incoming.request.call = call at hsame hoffered ⊢
  cases call with
  | healthCheck => exact hsame (OwnSame.refl _ _)
  | registerTenant name => exact hsame (ownSame_registerTenant name hregistered)
  | receiveWebhook request =>
    refine ⟨?_, fun hnone => absurd rfl (hnone request)⟩
    have hoffers := hoffered request rfl
    rcases h.engine.adds hoffers incoming.session incoming.fuel incoming.surroundings.env with
      ⟨owner, -, hadds⟩
    show OwnKept tenantId s.database (Api.session _ _ _).2.database
    rw [s.session_after incoming (.webhook request) fun w => by
      rw [Trigger.handle, Prog.run_discard]]
    exact ownKept_setRows tenantId hadds.kept
  | ofTenant call =>
    cases tenant with
    | none => exact hsame (OwnSame.refl _ _)
    | some context =>
      have hne := hother context rfl
      cases call with
      | getCurrentTenant => exact hsame (OwnSame.refl _ _)
      | streamExecution executionId => exact hsame (OwnSame.refl _ _)
      | manage request =>
        apply hsame
        obtain ⟨htenants, hcreated⟩ := manage_frame libs settings fromisoformat rate
          incoming.surroundings s.database context.id request
        have hkept := (othersKept_manage incoming.surroundings h.database fromisoformat rate
          request).ownSame hne
        show OwnSame tenantId s.database (s.setDatabase _).database
        rw [Api.database_setDatabase htenants hcreated]
        exact hkept
      | manualExecute workflowId triggerData =>
        exact hsame (ownSame_trigger h hne (.manual workflowId context.id triggerData) rfl
          (fun w => by rw [Trigger.handle, Prog.run_discard]) trivial)
      | replayExecution executionId overrideData =>
        exact hsame (ownSame_trigger h hne (.replay executionId context.id overrideData) rfl
          (fun w => by rw [Trigger.handle, Prog.run_discard]) trivial)

/-- A request that does not come from the tenant. -/
theorem Api.respond_kept (hbcrypt : bcrypt.Documented) (h : s.Sound bcrypt libs settings wire)
    (hoffered : incoming.Offered s) {issued : TenantWithKey} (hissued : issued ∈ s.tenants.issued)
    (hdenied : Denied s issued incoming) :
    let s' := (s.respond bcrypt libs settings wire fromisoformat rate selfRegistrationEnabled
      incoming).2
    OwnKept issued.id s.database s'.database ∧
      ((∀ request, incoming.request.call ≠ .receiveWebhook request) →
        OwnSame issued.id s.database s'.database) := by
  have hrefl := OwnSame.refl issued.id s.database
  rcases s.respond_state incoming with hsame | ⟨counters, tenant, hgranted, hsame | hroute⟩
  · rw [hsame]
    exact ⟨hrefl.kept, fun _ => hrefl⟩
  · rw [hsame]
    exact ⟨hrefl.kept, fun _ => hrefl⟩
  · rw [hroute]
    have hcounting : (s.counting counters).Sound bcrypt libs settings wire :=
      ⟨h.engine, h.logs, h.tenants⟩
    refine hcounting.route_kept hoffered (h.tenants.issued issued hissued) ?_
    rintro context rfl
    exact hdenied.ne_id hbcrypt h.tenants hissued hgranted.2

/-! ## Runs of the application -/

/-- What a session of a route commits is a step of the engine. -/
theorem Api.engine_session (s : Api) (surroundings : Surroundings) (entry : Entry)
    (hoffers : s.engine.Offers entry) {α : Type} {m : Prog α}
    (hprogram : ∀ w, ((entry.program libs settings wire 0 0).run w).2 = (m.run w).2)
    {d : Database} (hrows : d.rows = (s.database.session surroundings.env m).2) :
    Engine.Step libs settings wire s.engine (s.setDatabase d).engine := by
  have hstep : Engine.Step libs settings wire s.engine _ :=
    .entry entry 0 0 surroundings.env hoffers
  rw [Engine.after, hprogram] at hstep
  show Engine.Step libs settings wire s.engine { s.engine with rows := d.rows }
  rw [hrows]
  exact hstep

theorem rows_manageCreate (surroundings : Surroundings) (d : Database) (tenantId : Uuid)
    (body : WorkflowCreateRequest) : (manageCreate libs settings surroundings d tenantId body).2.rows =
      (d.session surroundings.env
        (createWorkflow libs settings body tenantId surroundings.generated)).2 := by
  unfold manageCreate
  dsimp only
  split <;> rfl

theorem rows_manageUpdate (surroundings : Surroundings) (d : Database) (tenantId workflowId : Uuid)
    (body : WorkflowUpdateRequest) :
    (manageUpdate libs settings surroundings d tenantId workflowId body).2.rows =
      (d.session surroundings.env
        (updateWorkflow libs settings body workflowId tenantId surroundings.generated)).2 := by
  unfold manageUpdate
  dsimp only
  split <;> rfl

theorem rows_manageDelete (surroundings : Surroundings) (d : Database) (tenantId workflowId : Uuid) :
    (manageDelete surroundings d tenantId workflowId).2.rows =
      (d.session surroundings.env (deleteWorkflow workflowId tenantId)).2 := by
  unfold manageDelete
  dsimp only
  split <;> rfl

theorem Api.Sound.engine_manage (h : s.Sound bcrypt libs settings wire)
    (surroundings : Surroundings) (tenantId : Uuid) (request : ManagementRequest) :
    Engine.Reachable libs settings wire (s.setDatabase (manage libs settings fromisoformat rate
      surroundings s.database tenantId request).2).engine := by
  cases request with
  | createWorkflow body =>
    exact h.engine.tail (s.engine_session surroundings (.createWorkflow body tenantId
      surroundings.generated) trivial (fun w => by rw [Entry.program, Prog.run_discard])
      (rows_manageCreate surroundings s.database tenantId body))
  | updateWorkflow workflowId body =>
    exact h.engine.tail (s.engine_session surroundings (.updateWorkflow body workflowId tenantId
      surroundings.generated) trivial (fun w => by rw [Entry.program, Prog.run_discard])
      (rows_manageUpdate surroundings s.database tenantId workflowId body))
  | deleteWorkflow workflowId =>
    exact h.engine.tail (s.engine_session surroundings (.deleteWorkflow workflowId tenantId) trivial
      (fun w => rfl) (rows_manageDelete surroundings s.database tenantId workflowId))
  | cancelExecution executionId =>
    exact h.engine.tail (s.engine_session surroundings
      (.operation (.cancelExecution executionId tenantId)) trivial (fun w => rfl) rfl)
  | getWorkflow workflowId =>
    show Engine.Reachable libs settings wire { s.engine with
      rows := (s.database.session surroundings.env (getTenantWorkflow workflowId tenantId)).2 }
    rw [Database.session_getTenantWorkflow]
    exact h.engine
  | listWorkflows cursor limit filters => exact h.engine
  | listExecutions cursor limit filters => exact h.engine
  | getExecution executionId => exact h.engine
  | getExecutionLogs executionId stepId => exact h.engine
  | getExecutionMetrics => exact h.engine

theorem logs_manage (surroundings : Surroundings) {d : Database} (hlogs : d.logs = ∅)
    (tenantId : Uuid) (request : ManagementRequest) :
    (manage libs settings fromisoformat rate surroundings d tenantId request).2.logs = ∅ := by
  cases request with
  | createWorkflow body =>
    simp only [manage, manageCreate]
    split <;> exact hlogs
  | updateWorkflow workflowId body =>
    simp only [manage, manageUpdate]
    split <;> exact hlogs
  | deleteWorkflow workflowId =>
    simp only [manage, manageDelete]
    split
    · exact hlogs
    · apply AList.ext
      show d.logs.entries.filter _ = []
      rw [hlogs]
      rfl
  | _ => exact hlogs

theorem Api.Sound.route (h : s.Sound bcrypt libs settings wire) (hoffered : incoming.Offered s)
    (tenant : Option TenantContext) :
    (Api.route bcrypt libs settings wire fromisoformat rate selfRegistrationEnabled s incoming
      tenant incoming.request.call).2.Sound bcrypt libs settings wire := by
  have htrigger : ∀ {m : Prog Response} (trigger : Trigger), s.engine.Offers (.trigger trigger) →
      (∀ w, ((trigger.handle libs settings wire (nesting libs settings performer
        incoming.session incoming.fuel) incoming.session).run w).2 = (m.run w).2) →
      (s.session incoming m).2.Sound bcrypt libs settings wire := by
    intro m trigger hoffers hhandle
    rw [s.session_after incoming trigger hhandle]
    exact ⟨h.engine.tail (.entry (.trigger trigger) _ _ _ hoffers), h.logs, h.tenants⟩
  unfold Incoming.Offered at hoffered
  generalize incoming.request.call = call at hoffered ⊢
  cases call with
  | healthCheck => exact h
  | registerTenant name =>
    have hregister := h.tenants.register incoming.tenantId incoming.surroundings.now name
      incoming.token incoming.salt
    show (registerTenantEndpoint bcrypt selfRegistrationEnabled s incoming name).2.Sound bcrypt libs
      settings wire
    unfold registerTenantEndpoint
    rw [Tenants.after] at hregister
    split
    · split
      · rename_i table tenant hok
        rw [hok] at hregister
        exact ⟨h.engine, h.logs, hregister⟩
      · exact h
    · exact h
  | receiveWebhook request =>
    exact htrigger (.webhook request) (hoffered request rfl) fun w => by
      rw [Trigger.handle, Prog.run_discard]
  | ofTenant call =>
    cases tenant with
    | none => exact h
    | some context =>
      cases call with
      | getCurrentTenant => exact h
      | streamExecution executionId => exact h
      | manage request =>
        exact ⟨h.engine_manage incoming.surroundings context.id request,
          logs_manage incoming.surroundings h.logs context.id request, h.tenants⟩
      | manualExecute workflowId triggerData =>
        exact htrigger (.manual workflowId context.id triggerData) trivial fun w => by
          rw [Trigger.handle, Prog.run_discard]
      | replayExecution executionId overrideData =>
        exact htrigger (.replay executionId context.id overrideData) trivial fun w => by
          rw [Trigger.handle, Prog.run_discard]

theorem Api.Sound.respond (h : s.Sound bcrypt libs settings wire) (hoffered : incoming.Offered s) :
    (s.respond bcrypt libs settings wire fromisoformat rate selfRegistrationEnabled
      incoming).2.Sound bcrypt libs settings wire := by
  rcases s.respond_state incoming with hsame | ⟨counters, tenant, -, hsame | hroute⟩
  · rw [hsame]
    exact h
  · rw [hsame]
    exact ⟨h.engine, h.logs, h.tenants⟩
  · rw [hroute]
    have hcounting : (s.counting counters).Sound bcrypt libs settings wire :=
      ⟨h.engine, h.logs, h.tenants⟩
    exact hcounting.route hoffered tenant

/-- A step of the application: a request, what runs beside the requests, or a change of
`is_active`, which is made by hand. -/
inductive Api.Step (bcrypt : Bcrypt) (libs : Libraries) (settings : Settings) (wire : Wire)
    (fromisoformat : String → Option Time) (rate : Nat → Nat → Json)
    (selfRegistrationEnabled : Bool) : Api → Api → Prop
  | request {s : Api} (incoming : Incoming) (hoffered : incoming.Offered s) :
      Api.Step bcrypt libs settings wire fromisoformat rate selfRegistrationEnabled s
        (s.respond bcrypt libs settings wire fromisoformat rate selfRegistrationEnabled incoming).2
  | background {s : Api} {engine : Engine} (hstep : Engine.Step libs settings wire s.engine engine) :
      Api.Step bcrypt libs settings wire fromisoformat rate selfRegistrationEnabled s
        { s with engine := engine }
  | setActive {s : Api} (id : Uuid) (isActive : Bool) :
      Api.Step bcrypt libs settings wire fromisoformat rate selfRegistrationEnabled s
        { s with tenants := s.tenants.after bcrypt (.setActive id isActive) }

/-- The states that the application reaches from empty tables. -/
def Api.Reachable (bcrypt : Bcrypt) (libs : Libraries) (settings : Settings) (wire : Wire)
    (fromisoformat : String → Option Time) (rate : Nat → Nat → Json)
    (selfRegistrationEnabled : Bool) (s : Api) : Prop :=
  Relation.ReflTransGen
    (Api.Step bcrypt libs settings wire fromisoformat rate selfRegistrationEnabled) .initial s

theorem Api.Reachable.sound
    (h : Api.Reachable bcrypt libs settings wire fromisoformat rate selfRegistrationEnabled s) :
    s.Sound bcrypt libs settings wire := by
  induction h with
  | refl => exact ⟨.refl, rfl, Tenants.Sound.empty⟩
  | tail _ hstep ih =>
    cases hstep with
    | request incoming hoffered => exact ih.respond hoffered
    | background hstep => exact ⟨ih.engine.tail hstep, ih.logs, ih.tenants⟩
    | setActive id isActive => exact ⟨ih.engine, ih.logs, ih.tenants.setActive id isActive⟩

/-- What happens without the key of a tenant: requests that do not come from the tenant, and
what the process remembers and forgets.  Only with `triggers` webhooks are received, with any
outcome, and cron jobs run. -/
inductive Api.Outside (bcrypt : Bcrypt) (libs : Libraries) (settings : Settings) (wire : Wire)
    (fromisoformat : String → Option Time) (rate : Nat → Nat → Json)
    (selfRegistrationEnabled : Bool) (issued : TenantWithKey) (triggers : Bool) : Api → Api → Prop
  | request {s : Api} (incoming : Incoming) (hoffered : incoming.Offered s)
      (hdenied : Denied s issued incoming)
      (htriggers : triggers = false → ∀ request, incoming.request.call ≠ .receiveWebhook request) :
      Api.Outside bcrypt libs settings wire fromisoformat rate selfRegistrationEnabled issued triggers
        s (s.respond bcrypt libs settings wire fromisoformat rate selfRegistrationEnabled incoming).2
  | cron {s : Api} (workflowId tenantId : String) (session : SessionRef) (fuel : Nat)
      (env : Environment) (hjob : (workflowId, tenantId) ∈ s.engine.jobs)
      (htriggers : triggers = true) :
      Api.Outside bcrypt libs settings wire fromisoformat rate selfRegistrationEnabled issued triggers
        s (s.setRows (s.engine.after env ((Entry.trigger (.cron workflowId tenantId)).program libs
          settings wire session fuel)).rows)
  | remember {s : Api} {engine : Engine} (hstep : Engine.Step libs settings wire s.engine engine)
      (hrows : engine.rows = s.engine.rows) :
      Api.Outside bcrypt libs settings wire fromisoformat rate selfRegistrationEnabled issued triggers
        s { s with engine := engine }

/-- A key that was issued stays issued. -/
theorem Api.issued_respond {issued : TenantWithKey} (hissued : issued ∈ s.tenants.issued) :
    issued ∈ (s.respond bcrypt libs settings wire fromisoformat rate selfRegistrationEnabled
      incoming).2.tenants.issued := by
  have hroute : ∀ (s : Api), issued ∈ s.tenants.issued → ∀ tenant,
      issued ∈ (Api.route bcrypt libs settings wire fromisoformat rate selfRegistrationEnabled s
        incoming tenant incoming.request.call).2.tenants.issued := by
    intro s hissued tenant
    generalize incoming.request.call = call
    cases call with
    | healthCheck => exact hissued
    | registerTenant name =>
      show issued ∈ (registerTenantEndpoint bcrypt selfRegistrationEnabled s incoming
        name).2.tenants.issued
      unfold registerTenantEndpoint
      split
      · split
        · exact List.mem_cons_of_mem _ hissued
        · exact hissued
      · exact hissued
    | receiveWebhook request => exact hissued
    | ofTenant call =>
      cases tenant with
      | none => exact hissued
      | some context => cases call <;> exact hissued
  rcases s.respond_state incoming with hsame | ⟨counters, tenant, -, hsame | hsame⟩
  · rw [hsame]
    exact hissued
  · rw [hsame]
    exact hissued
  · rw [hsame]
    exact hroute (s.counting counters) hissued tenant

theorem Api.Sound.setRows_after (h : s.Sound bcrypt libs settings wire) {entry : Entry}
    (hoffers : s.engine.Offers entry) (session : SessionRef) (fuel : Nat) (env : Environment) :
    (s.setRows (s.engine.after env (entry.program libs settings wire session fuel)).rows).Sound bcrypt
      libs settings wire := by
  have hstep : Engine.Step libs settings wire s.engine _ := .entry entry session fuel env hoffers
  exact ⟨h.engine.tail hstep, h.logs, h.tenants⟩

/-- A step without the key of the tenant. -/
theorem Api.Sound.outside {s' : Api} {issued : TenantWithKey} {triggers : Bool}
    (hbcrypt : bcrypt.Documented) (h : s.Sound bcrypt libs settings wire)
    (hissued : issued ∈ s.tenants.issued)
    (hstep : Api.Outside bcrypt libs settings wire fromisoformat rate selfRegistrationEnabled issued
      triggers s s') :
    (s'.Sound bcrypt libs settings wire ∧ issued ∈ s'.tenants.issued) ∧
      OwnKept issued.id s.database s'.database ∧
        (triggers = false → OwnSame issued.id s.database s'.database) := by
  cases hstep with
  | request incoming hoffered hdenied htriggers =>
    obtain ⟨hkept, hsame⟩ := Api.respond_kept hbcrypt h hoffered hissued hdenied
    exact ⟨⟨h.respond hoffered, Api.issued_respond hissued⟩, hkept, fun hquiet =>
      hsame (htriggers hquiet)⟩
  | cron workflowId tenantId session fuel env hjob htriggers =>
    have hoffers : s.engine.Offers (.trigger (.cron workflowId tenantId)) := hjob
    rcases h.engine.adds hoffers session fuel env with ⟨owner, -, hadds⟩
    refine ⟨⟨h.setRows_after hoffers session fuel env, hissued⟩,
      ownKept_setRows issued.id hadds.kept, fun hquiet => ?_⟩
    rw [hquiet] at htriggers
    cases htriggers
  | @remember engine hstep hrows =>
    have hdatabase : ({ s with engine := engine } : Api).database = s.database := by
      rw [Api.database, Api.database, hrows]
    have hrefl := OwnSame.refl issued.id s.database
    rw [hdatabase]
    exact ⟨⟨⟨h.engine.tail hstep, h.logs, h.tenants⟩, hissued⟩, hrefl.kept, fun _ => hrefl⟩

/-- Without the key of a tenant, or while the tenant is not active, nothing that comes to the
application changes or removes a row of the tenant: requests with any other key or none, cron
jobs and webhooks, in any order.  Unless a webhook is received or a cron job runs, nothing adds
one either. -/
theorem rows_kept_without_key {s' : Api} {issued : TenantWithKey} {triggers : Bool}
    (hbcrypt : bcrypt.Documented)
    (h : Api.Reachable bcrypt libs settings wire fromisoformat rate selfRegistrationEnabled s)
    (hissued : issued ∈ s.tenants.issued)
    (hrun : Relation.ReflTransGen (Api.Outside bcrypt libs settings wire fromisoformat rate
      selfRegistrationEnabled issued triggers) s s') :
    OwnKept issued.id s.database s'.database ∧
      (triggers = false → OwnSame issued.id s.database s'.database) := by
  have hrefl := OwnSame.refl issued.id s.database
  -- the run stays among the states where the key is that of the tenant
  have hall : (s'.Sound bcrypt libs settings wire ∧ issued ∈ s'.tenants.issued) ∧
      OwnKept issued.id s.database s'.database ∧
        (triggers = false → OwnSame issued.id s.database s'.database) := by
    induction hrun with
    | refl => exact ⟨⟨h.sound, hissued⟩, hrefl.kept, fun _ => hrefl⟩
    | tail _ hstep ih =>
      obtain ⟨⟨hsound, hmem⟩, hkept, hsame⟩ := ih
      obtain ⟨hinvariant, hkept', hsame'⟩ := hsound.outside hbcrypt hmem hstep
      exact ⟨hinvariant, hkept.trans hkept', fun hquiet => (hsame hquiet).trans (hsame' hquiet)⟩
  exact hall.2

end

/-- A request in quiet surroundings, with what is drawn for a tenant. -/
def Api.calling (apiKey : Option String) (drawn : Nat) (call : RouteCall) : Incoming where
  request := ⟨"unknown", by decide, apiKey, "1", call⟩
  surroundings := quietSurroundings
  session := 0
  fuel := 0
  time := 0
  clock := 0
  faults := {}
  postgres := true
  redis := true
  workers := 1
  tenantId := drawn
  token := drawn * 16 ^ 24
  salt := 0

/-- The application after it. -/
def Api.afterCall (s : Api) (incoming : Incoming) : Api :=
  (s.respond plainBcrypt plainLibraries {} plainWire (fun _ => none) (fun _ _ => .null) true
    incoming).2

theorem Api.Reachable.afterCall {s : Api} {incoming : Incoming}
    (h : Api.Reachable plainBcrypt plainLibraries {} plainWire (fun _ => none) (fun _ _ => .null) true
      s) (hoffered : incoming.Offered s) :
    Api.Reachable plainBcrypt plainLibraries {} plainWire (fun _ => none) (fun _ _ => .null) true
      (s.afterCall incoming) :=
  Relation.ReflTransGen.tail h (.request incoming hoffered)

/-- Two tenants are registered, and the first of them creates a workflow. -/
def Api.twoTenants : Api :=
  ((Api.initial.afterCall (calling none 7 (.registerTenant "first"))).afterCall
    (calling none 8 (.registerTenant "second"))).afterCall
    (calling (some (generateApiKey (7 * 16 ^ 24))) 0
      (.ofTenant (.manage (.createWorkflow Engine.hookBody))))

theorem Api.reachable_twoTenants :
    Api.Reachable plainBcrypt plainLibraries {} plainWire (fun _ => none) (fun _ _ => .null) true
      Api.twoTenants := by
  have hempty : Api.Reachable plainBcrypt plainLibraries {} plainWire (fun _ => none)
      (fun _ _ => .null) true Api.initial := .refl
  unfold Api.twoTenants
  apply Api.Reachable.afterCall
  · apply Api.Reachable.afterCall
    · exact hempty.afterCall nofun
    · exact nofun
  · exact nofun

/-- The workflow outlives that the second tenant deletes it, and that somebody does without a
key. -/
theorem rows_kept_without_key_delete :
    let delete : RouteCall := .ofTenant (.manage (.deleteWorkflow 1))
    let s := Api.twoTenants
    let s' := (s.afterCall (Api.calling (some (generateApiKey (8 * 16 ^ 24))) 0 delete)).afterCall
      (Api.calling none 0 delete)
    (s.database.row .workflows 1).isSome = true ∧ OwnSame 7 s.database s'.database := by
  intro delete s s'
  have hcall : ∀ request, delete ≠ .receiveWebhook request := fun _ heq => RouteCall.noConfusion heq
  have hoffered : ∀ apiKey s, (Api.calling apiKey 0 delete).Offered s :=
    fun _ _ request heq => absurd heq (hcall request)
  have hrun : Relation.ReflTransGen (Api.Outside plainBcrypt plainLibraries {} plainWire
      (fun _ => none) (fun _ _ => .null) true
      ⟨7, "first", generateApiKey (7 * 16 ^ 24)⟩ false) s s' :=
    .tail (.single (.request _ (hoffered _ _) (.inl (by decide +kernel)) fun _ => hcall))
      (.request _ (hoffered _ _) (.inl (by decide)) fun _ => hcall)
  exact ⟨by decide +kernel, (rows_kept_without_key plainBcrypt_documented Api.reachable_twoTenants
    (List.mem_cons_of_mem _ List.mem_cons_self) hrun).2 rfl⟩

end WorkflowEngine

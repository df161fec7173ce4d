import WorkflowEngine.Database

/-!
# API keys

`register_tenant` and `validate_api_key` of `src/tenants/service.py`.  A key is looked up by
its first 17 characters, on which the table has a unique constraint, and is checked against
the hash that was stored for it.  `bcrypt` is a parameter: it looks at the first 72 bytes
only, which is more than a key has.

A history is any sequence of registrations and changes of `is_active`.  `apiKeys_exact` says
what each text is answered after it.
-/

namespace WorkflowEngine

open Py

/-! ## The service -/

/-- `bcrypt`.  A salt goes into the hash. -/
structure Bcrypt where
  hashpw : List UInt8 → Nat → String
  checkpw : List UInt8 → String → Bool

/-- A password is compared in its first 72 bytes. -/
def Bcrypt.Documented (bcrypt : Bcrypt) : Prop :=
  ∀ password key salt, bcrypt.checkpw password (bcrypt.hashpw key salt) = true ↔
    password.take 72 = key.take 72

/-- `text.encode("utf-8")`. -/
def encodeUtf8 (text : String) : List UInt8 := text.toByteArray.data.toList

/-- `API_KEY_PREFIX_LABEL`. -/
def apiKeyPrefixLabel : String := "wae_live_"

/-- `API_KEY_LOOKUP_PREFIX_LENGTH`. -/
def apiKeyLookupPrefixLength : Nat := 17

/-- `_generate_api_key`.  The 16 bytes of `token_hex` are the digits of a number. -/
def generateApiKey (token : Nat) : String :=
  apiKeyPrefixLabel ++ String.ofList (Uuid.hexDigits token)

/-- `api_key[:API_KEY_LOOKUP_PREFIX_LENGTH]`. -/
def lookupPrefix (apiKey : String) : String :=
  String.ofList (apiKey.toList.take apiKeyLookupPrefixLength)

/-- `TenantWithKey`. -/
structure TenantWithKey where
  id : Uuid
  name : String
  apiKey : String

/-- `TenantContext`. -/
structure TenantContext where
  id : Uuid
  name : String
  isActive : Bool

/-- The codes of `validate_api_key`. -/
inductive ApiKeyCode where
  | invalidApiKey
  | tenantDisabled
  deriving DecidableEq, Repr

/-- What `validate_api_key` raises: an `AppError`, or the error of `scalar_one_or_none`. -/
inductive ApiKeyError where
  | app (code : ApiKeyCode) (message : String) (statusCode : Nat)
  | multipleResultsFound

def ApiKeyError.invalid : ApiKeyError := .app .invalidApiKey "Invalid or missing API key." 401

def ApiKeyError.disabled : ApiKeyError := .app .tenantDisabled "Tenant account is disabled." 403

/-- The table `tenants`. -/
abbrev TenantTable := AList (fun _ : Uuid => Tenant)

section

variable (bcrypt : Bcrypt)

/-- `register_tenant`, with the id and the time that the database gives, and what is drawn
for the key and the salt.  A clash in a unique column is an `IntegrityError`. -/
def registerTenant (tenants : TenantTable) (id : Uuid) (now : Time) (name : String)
    (token salt : Nat) : Except PyError (TenantTable × TenantWithKey) :=
  let apiKey := generateApiKey token
  if id ∈ tenants ∨ ∃ entry ∈ tenants.entries, entry.2.apiKeyPrefix = lookupPrefix apiKey then
    .error (.other "IntegrityError" "duplicate key value violates unique constraint")
  else
    .ok (tenants.insert id
        { name
          apiKeyHash := bcrypt.hashpw (encodeUtf8 apiKey) salt
          apiKeyPrefix := lookupPrefix apiKey
          isActive := true
          createdAt := now
          updatedAt := now },
      ⟨id, name, apiKey⟩)

/-- `validate_api_key`. -/
def validateApiKey (tenants : TenantTable) (apiKey : String) : Except ApiKeyError TenantContext :=
  if apiKey.length < apiKeyLookupPrefixLength then .error .invalid
  else
    match tenants.entries.filter (fun entry => entry.2.apiKeyPrefix = lookupPrefix apiKey) with
    | [] => .error .invalid
    | [⟨id, tenant⟩] =>
      if !bcrypt.checkpw (encodeUtf8 apiKey) tenant.apiKeyHash then .error .invalid
      else if !tenant.isActive then .error .disabled
      else .ok ⟨id, tenant.name, tenant.isActive⟩
    | _ => .error .multipleResultsFound

end

/-! ## Histories -/

/-- What happens to the tenants. -/
inductive TenantEvent where
  | register (id : Uuid) (now : Time) (name : String) (token salt : Nat)
  | setActive (id : Uuid) (isActive : Bool)

/-- The table, and what the registrations have answered. -/
structure Tenants where
  table : TenantTable
  issued : List TenantWithKey

namespace Tenants

variable (bcrypt : Bcrypt)

/-- The tenants after an event.  A registration that raises changes nothing. -/
def after (s : Tenants) : TenantEvent → Tenants
  | .register id now name token salt =>
    match registerTenant bcrypt s.table id now name token salt with
    | .ok (table, response) => ⟨table, response :: s.issued⟩
    | .error _ => s
  | .setActive id isActive =>
    match s.table.lookup id with
    | some tenant => { s with table := s.table.insert id { tenant with isActive := isActive } }
    | none => s

/-- The tenants after a history. -/
def run (events : List TenantEvent) : Tenants := events.foldl (after bcrypt) ⟨∅, []⟩

/-- The key that was issued to the tenant is the one of its row. -/
structure Sound (s : Tenants) : Prop where
  row : ∀ id tenant, s.table.lookup id = some tenant → ∃ token salt,
    tenant.apiKeyHash = bcrypt.hashpw (encodeUtf8 (generateApiKey token)) salt ∧
      tenant.apiKeyPrefix = lookupPrefix (generateApiKey token) ∧
      ⟨id, tenant.name, generateApiKey token⟩ ∈ s.issued
  issued : ∀ response ∈ s.issued, response.id ∈ s.table
  unique : ∀ response ∈ s.issued, ∀ other ∈ s.issued, response.id = other.id → response = other
  constraint : ∀ id id' tenant tenant', s.table.lookup id = some tenant →
    s.table.lookup id' = some tenant' → tenant.apiKeyPrefix = tenant'.apiKeyPrefix → id = id'

end Tenants

/-! ## Keys -/

/-- A text of ASCII characters has as many bytes as characters. -/
theorem length_encodeUtf8 {chars : List Char} (h : ∀ c ∈ chars, c.val ≤ 127) :
    (encodeUtf8 (String.ofList chars)).length = chars.length := by
  have hsize : (encodeUtf8 (String.ofList chars)).length = (String.ofList chars).utf8ByteSize := rfl
  rw [hsize]
  induction chars with
  | nil => rfl
  | cons c chars ih =>
    obtain ⟨hc, hchars⟩ := List.forall_mem_cons.mp h
    rw [String.ofList_cons, String.utf8ByteSize_append, String.utf8ByteSize_singleton,
      Char.utf8Size_eq_one_iff.mpr hc, ih hchars rfl, List.length_cons]
    omega

theorem encodeUtf8_inj {text text' : String} (h : encodeUtf8 text = encodeUtf8 text') :
    text = text' := by
  apply String.toByteArray_inj.mp
  exact ByteArray.ext (Array.toList_inj.mp h)

theorem toList_generateApiKey (token : Nat) :
    (generateApiKey token).toList = apiKeyPrefixLabel.toList ++ Uuid.hexDigits token := by
  rw [generateApiKey, String.toList_append, String.toList_ofList]

theorem length_generateApiKey (token : Nat) : (generateApiKey token).length = 41 := by
  rw [← String.length_toList, toList_generateApiKey, List.length_append, Uuid.hexDigits,
    List.length_map, List.length_range]
  rfl

theorem length_encodeUtf8_generateApiKey (token : Nat) :
    (encodeUtf8 (generateApiKey token)).length = 41 := by
  have hdigit : ∀ n < 16, (Nat.digitChar n).val ≤ 127 := by decide
  have hlabel : ∀ c ∈ apiKeyPrefixLabel.toList, c.val ≤ 127 := by
    intro c hc
    have hall : apiKeyPrefixLabel.toList.all (fun c => decide (c.val ≤ 127)) = true := rfl
    exact of_decide_eq_true (List.all_eq_true.mp hall c hc)
  have hascii : ∀ c ∈ (generateApiKey token).toList, c.val ≤ 127 := by
    intro c hc
    rw [toList_generateApiKey] at hc
    rcases List.mem_append.mp hc with hin | hin
    · exact hlabel c hin
    · obtain ⟨i, -, rfl⟩ := List.mem_map.mp hin
      exact hdigit _ (Nat.mod_lt _ (by decide))
  have hlength := length_encodeUtf8 hascii
  rw [String.ofList_toList, String.length_toList, length_generateApiKey] at hlength
  exact hlength

/-- Only the key itself passes the check against its hash. -/
theorem Bcrypt.Documented.checkpw_iff {bcrypt : Bcrypt} (h : bcrypt.Documented) (text : String)
    (token salt : Nat) :
    bcrypt.checkpw (encodeUtf8 text) (bcrypt.hashpw (encodeUtf8 (generateApiKey token)) salt) = true ↔
      text = generateApiKey token := by
  rw [h]
  constructor
  · intro htake
    have hkey := length_encodeUtf8_generateApiKey token
    have hwhole : (encodeUtf8 (generateApiKey token)).take 72 = encodeUtf8 (generateApiKey token) :=
      List.take_of_length_le (by omega)
    rw [hwhole] at htake
    -- What is left of 72 bytes has 41 of them, so nothing was cut off.
    have hlength := congrArg List.length htake
    rw [List.length_take, hkey] at hlength
    rw [List.take_of_length_le (by omega)] at htake
    exact encodeUtf8_inj htake
  · rintro rfl
    rfl

/-! ## Registrations and activations -/

section

variable {bcrypt : Bcrypt} {s : Tenants}

theorem mem_entries {table : TenantTable} {id : Uuid} {tenant : Tenant} :
    (⟨id, tenant⟩ : Sigma fun _ : Uuid => Tenant) ∈ table.entries ↔
      table.lookup id = some tenant := AList.mem_lookup_iff.symm

/-- A registration that raises nothing adds a row with an id and a prefix of its own. -/
theorem registerTenant_ok {tenants table : TenantTable} {id : Uuid} {now : Time} {name : String}
    {token salt : Nat} {response : TenantWithKey}
    (h : registerTenant bcrypt tenants id now name token salt = .ok (table, response)) :
    response = ⟨id, name, generateApiKey token⟩ ∧ id ∉ tenants ∧
      (∀ id' tenant', tenants.lookup id' = some tenant' →
        tenant'.apiKeyPrefix ≠ lookupPrefix (generateApiKey token)) ∧
      table = tenants.insert id
        ⟨name, bcrypt.hashpw (encodeUtf8 (generateApiKey token)) salt,
          lookupPrefix (generateApiKey token), true, now, now⟩ := by
  unfold registerTenant at h
  dsimp only at h
  split at h
  · cases h
  · rename_i hfree
    cases h
    refine ⟨rfl, fun hmem => hfree (.inl hmem), fun id' tenant' hlookup heq => ?_, rfl⟩
    exact hfree (.inr ⟨⟨id', tenant'⟩, mem_entries.mpr hlookup, heq⟩)

namespace Tenants.Sound

theorem empty : Sound bcrypt ⟨∅, []⟩ := by
  refine ⟨fun id tenant hlookup => ?_, by simp, by simp, fun id id' tenant tenant' hlookup => ?_⟩
  · rw [AList.lookup_empty] at hlookup
    cases hlookup
  · rw [AList.lookup_empty] at hlookup
    cases hlookup

theorem register (h : Sound bcrypt s) (id : Uuid) (now : Time) (name : String)
    (token salt : Nat) : Sound bcrypt (s.after bcrypt (.register id now name token salt)) := by
  simp only [Tenants.after]
  cases hregister : registerTenant bcrypt s.table id now name token salt with
  | error e => exact h
  | ok result =>
    obtain ⟨table, response⟩ := result
    obtain ⟨rfl, hid, hprefixes, rfl⟩ := registerTenant_ok hregister
    have hnew : ∀ other ∈ s.issued, other.id ≠ id := fun other hother heq =>
      hid (heq ▸ h.issued other hother)
    have hlookup : ∀ {id' tenant'}, id' ≠ id → (s.table.insert id
        ⟨name, bcrypt.hashpw (encodeUtf8 (generateApiKey token)) salt,
          lookupPrefix (generateApiKey token), true, now, now⟩).lookup id' = some tenant' →
        s.table.lookup id' = some tenant' := fun hne hrow => by
      rwa [AList.lookup_insert_ne hne] at hrow
    constructor
    case row =>
      intro id' tenant' hrow
      by_cases heq : id' = id
      · subst heq
        rw [AList.lookup_insert] at hrow
        cases hrow
        exact ⟨token, salt, rfl, rfl, List.mem_cons_self⟩
      · obtain ⟨token', salt', hhash, hprefix', hissued⟩ := h.row id' tenant' (hlookup heq hrow)
        exact ⟨token', salt', hhash, hprefix', List.mem_cons_of_mem _ hissued⟩
    case issued =>
      intro other hother
      rcases List.mem_cons.mp hother with rfl | hold
      · exact (AList.mem_insert s.table).mpr (.inl rfl)
      · exact (AList.mem_insert s.table).mpr (.inr (h.issued other hold))
    case unique =>
      intro other hother other' hother' heq
      rcases List.mem_cons.mp hother with rfl | hold
      · rcases List.mem_cons.mp hother' with rfl | hold'
        · rfl
        · exact absurd heq.symm (hnew other' hold')
      · rcases List.mem_cons.mp hother' with rfl | hold'
        · exact absurd heq (hnew other hold)
        · exact h.unique other hold other' hold' heq
    case constraint =>
      intro id₁ id₂ tenant₁ tenant₂ hrow₁ hrow₂ hsame
      by_cases heq₁ : id₁ = id
      · by_cases heq₂ : id₂ = id
        · rw [heq₁, heq₂]
        · subst heq₁
          rw [AList.lookup_insert] at hrow₁
          cases hrow₁
          exact absurd hsame.symm (hprefixes id₂ tenant₂ (hlookup heq₂ hrow₂))
      · by_cases heq₂ : id₂ = id
        · subst heq₂
          rw [AList.lookup_insert] at hrow₂
          cases hrow₂
          exact absurd hsame (hprefixes id₁ tenant₁ (hlookup heq₁ hrow₁))
        · exact h.constraint id₁ id₂ tenant₁ tenant₂ (hlookup heq₁ hrow₁) (hlookup heq₂ hrow₂) hsame

/-- Only `is_active` differs afterwards. -/
theorem setActive (h : Sound bcrypt s) (id : Uuid) (isActive : Bool) :
    Sound bcrypt (s.after bcrypt (.setActive id isActive)) := by
  simp only [Tenants.after]
  cases hfound : s.table.lookup id with
  | none => exact h
  | some tenant =>
    -- Each row is an old one, with another `is_active`.
    have hold : ∀ id' tenant', (s.table.insert id { tenant with isActive := isActive }).lookup id' =
        some tenant' → ∃ old, s.table.lookup id' = some old ∧
          tenant' = { old with isActive := tenant'.isActive } := by
      intro id' tenant' hrow
      by_cases heq : id' = id
      · subst heq
        rw [AList.lookup_insert] at hrow
        cases hrow
        exact ⟨tenant, hfound, rfl⟩
      · rw [AList.lookup_insert_ne heq] at hrow
        exact ⟨tenant', hrow, rfl⟩
    refine ⟨fun id' tenant' hrow => ?_, fun other hother => ?_, h.unique,
      fun id₁ id₂ tenant₁ tenant₂ hrow₁ hrow₂ hsame => ?_⟩
    · obtain ⟨old, hlookup, heq⟩ := hold id' tenant' hrow
      rw [heq]
      exact h.row id' old hlookup
    · exact (AList.mem_insert s.table).mpr (.inr (h.issued other hother))
    · obtain ⟨old₁, hlookup₁, heq₁⟩ := hold id₁ tenant₁ hrow₁
      obtain ⟨old₂, hlookup₂, heq₂⟩ := hold id₂ tenant₂ hrow₂
      rw [heq₁, heq₂] at hsame
      exact h.constraint id₁ id₂ old₁ old₂ hlookup₁ hlookup₂ hsame

theorem after (h : Sound bcrypt s) (event : TenantEvent) : Sound bcrypt (s.after bcrypt event) := by
  cases event with
  | register id now name token salt => exact h.register id now name token salt
  | setActive id isActive => exact h.setActive id isActive

end Tenants.Sound

theorem Tenants.sound_run (events : List TenantEvent) : (run bcrypt events).Sound bcrypt := by
  have hfold : ∀ (events : List TenantEvent) (s : Tenants), s.Sound bcrypt →
      (events.foldl (after bcrypt) s).Sound bcrypt := by
    intro events
    induction events with
    | nil => exact fun s h => h
    | cons event events ih => exact fun s h => ih _ (h.after event)
  exact hfold events ⟨∅, []⟩ Sound.empty

/-! ## Validation -/

/-- No row has the prefix of the text. -/
theorem validateApiKey_missing {tenants : TenantTable} {apiKey : String}
    (h : ∀ id tenant, tenants.lookup id = some tenant → tenant.apiKeyPrefix ≠ lookupPrefix apiKey) :
    validateApiKey bcrypt tenants apiKey = .error .invalid := by
  have hnone : tenants.entries.filter (fun entry => entry.2.apiKeyPrefix = lookupPrefix apiKey) =
      [] := by
    apply List.filter_eq_nil_iff.mpr
    rintro ⟨id, tenant⟩ hmem heq
    exact h id tenant (mem_entries.mp hmem) (of_decide_eq_true heq)
  unfold validateApiKey
  rw [hnone, ite_self]

/-- The text is long enough, and its prefix finds the one row that has it. -/
theorem Tenants.Sound.validateApiKey_found (h : s.Sound bcrypt) {id : Uuid} {tenant : Tenant}
    (hrow : s.table.lookup id = some tenant) {apiKey : String}
    (hlength : apiKeyLookupPrefixLength ≤ apiKey.length)
    (hfound : tenant.apiKeyPrefix = lookupPrefix apiKey) :
    validateApiKey bcrypt s.table apiKey =
      if !bcrypt.checkpw (encodeUtf8 apiKey) tenant.apiKeyHash then .error .invalid
      else if !tenant.isActive then .error .disabled
      else .ok ⟨id, tenant.name, tenant.isActive⟩ := by
  have hone : s.table.entries.filter (fun entry => entry.2.apiKeyPrefix = lookupPrefix apiKey) =
      [⟨id, tenant⟩] := by
    apply List.perm_singleton.mp
    refine (List.perm_ext_iff_of_nodup (s.table.nodupKeys.nodup.filter _)
      (List.nodup_singleton _)).mpr ?_
    rintro ⟨id', tenant'⟩
    rw [List.mem_filter, List.mem_singleton, mem_entries, decide_eq_true_eq]
    constructor
    · rintro ⟨hrow', hsame⟩
      have heq := h.constraint id' id tenant' tenant hrow' hrow (hsame.trans hfound.symm)
      subst heq
      cases hrow.symm.trans hrow'
      rfl
    · intro heq
      cases heq
      exact ⟨hrow, hfound⟩
  unfold validateApiKey
  rw [hone, if_neg (Nat.not_lt.mpr hlength)]

/-- The row of a tenant that was registered. -/
theorem Tenants.Sound.row_of_issued (h : s.Sound bcrypt) {response : TenantWithKey}
    (hissued : response ∈ s.issued) :
    ∃ tenant token salt, s.table.lookup response.id = some tenant ∧ tenant.name = response.name ∧
      response.apiKey = generateApiKey token ∧
      tenant.apiKeyHash = bcrypt.hashpw (encodeUtf8 response.apiKey) salt ∧
      tenant.apiKeyPrefix = lookupPrefix response.apiKey := by
  obtain ⟨tenant, hrow⟩ := Option.isSome_iff_exists.mp
    (AList.lookup_isSome.mpr (h.issued response hissued))
  obtain ⟨token, salt, hhash, hfound, hissued'⟩ := h.row response.id tenant hrow
  have heq := h.unique response hissued _ hissued' rfl
  have hname : response.name = tenant.name := congrArg TenantWithKey.name heq
  have hkey : response.apiKey = generateApiKey token := congrArg TenantWithKey.apiKey heq
  exact ⟨tenant, token, salt, hrow, hname.symm, hkey, hkey ▸ hhash, hkey ▸ hfound⟩

/-- No key is issued twice. -/
theorem Tenants.Sound.eq_of_apiKey_eq (h : s.Sound bcrypt) {response other : TenantWithKey}
    (hissued : response ∈ s.issued) (hother : other ∈ s.issued)
    (hkey : response.apiKey = other.apiKey) : response = other := by
  obtain ⟨tenant, -, -, hrow, -, -, -, hfound⟩ := h.row_of_issued hissued
  obtain ⟨tenant', -, -, hrow', -, -, -, hfound'⟩ := h.row_of_issued hother
  rw [hkey, ← hfound'] at hfound
  exact h.unique response hissued other hother
    (h.constraint response.id other.id tenant tenant' hrow hrow' hfound)

/-- The key that was issued to a tenant. -/
theorem Tenants.Sound.validateApiKey_issued (hbcrypt : bcrypt.Documented) (h : s.Sound bcrypt)
    {response : TenantWithKey} (hissued : response ∈ s.issued) :
    ∃ tenant, s.table.lookup response.id = some tenant ∧ tenant.name = response.name ∧
      validateApiKey bcrypt s.table response.apiKey =
        if tenant.isActive then .ok ⟨response.id, tenant.name, true⟩ else .error .disabled := by
  obtain ⟨tenant, token, salt, hrow, hname, hkey, hhash, hfound⟩ := h.row_of_issued hissued
  refine ⟨tenant, hrow, hname, ?_⟩
  have hlength : apiKeyLookupPrefixLength ≤ response.apiKey.length := by
    rw [hkey, length_generateApiKey]
    decide
  have hcheck : bcrypt.checkpw (encodeUtf8 response.apiKey) tenant.apiKeyHash = true := by
    rw [hhash, hkey]
    exact (hbcrypt.checkpw_iff _ token salt).mpr rfl
  rw [h.validateApiKey_found hrow hlength hfound, hcheck]
  cases tenant.isActive <;> rfl

/-- Any other text. -/
theorem Tenants.Sound.validateApiKey_other (hbcrypt : bcrypt.Documented) (h : s.Sound bcrypt)
    {apiKey : String} (hother : ∀ response ∈ s.issued, response.apiKey ≠ apiKey) :
    validateApiKey bcrypt s.table apiKey = .error .invalid := by
  by_cases hfound : ∃ id tenant, s.table.lookup id = some tenant ∧
      tenant.apiKeyPrefix = lookupPrefix apiKey
  · obtain ⟨id, tenant, hrow, hfound⟩ := hfound
    obtain ⟨token, salt, hhash, -, hissued⟩ := h.row id tenant hrow
    by_cases hlength : apiKeyLookupPrefixLength ≤ apiKey.length
    · have hcheck : bcrypt.checkpw (encodeUtf8 apiKey) tenant.apiKeyHash = false := by
        rw [hhash, ← Bool.not_eq_true, hbcrypt.checkpw_iff]
        exact fun heq => hother _ hissued heq.symm
      rw [h.validateApiKey_found hrow hlength hfound, hcheck]
      rfl
    · unfold validateApiKey
      rw [if_pos (Nat.lt_of_not_le hlength)]
  · exact validateApiKey_missing fun id tenant hrow hsame => hfound ⟨id, tenant, hrow, hsame⟩

/-- After any history a text is answered with a tenant exactly if it is the key that was
issued to it and the tenant is active, with `TENANT_DISABLED` exactly if it is the key of a
tenant that is not, and with `INVALID_API_KEY` if it was not issued. -/
theorem apiKeys_exact (hbcrypt : bcrypt.Documented) (events : List TenantEvent)
    (apiKey : String) :
    let s := Tenants.run bcrypt events
    (∀ context, validateApiKey bcrypt s.table apiKey = .ok context ↔
      ∃ tenant, s.table.lookup context.id = some tenant ∧ tenant.isActive = true ∧
        context = ⟨context.id, tenant.name, true⟩ ∧
        ⟨context.id, tenant.name, apiKey⟩ ∈ s.issued) ∧
    (validateApiKey bcrypt s.table apiKey = .error .disabled ↔
      ∃ id tenant, s.table.lookup id = some tenant ∧ tenant.isActive = false ∧
        ⟨id, tenant.name, apiKey⟩ ∈ s.issued) ∧
    (validateApiKey bcrypt s.table apiKey = .error .invalid ↔
      ∀ response ∈ s.issued, response.apiKey ≠ apiKey) := by
  intro s
  have h : s.Sound bcrypt := Tenants.sound_run events
  by_cases hissued : ∃ response ∈ s.issued, response.apiKey = apiKey
  · obtain ⟨response, hresponse, rfl⟩ := hissued
    obtain ⟨tenant, hrow, hname, hvalidate⟩ := h.validateApiKey_issued hbcrypt hresponse
    have hmine : ⟨response.id, tenant.name, response.apiKey⟩ ∈ s.issued := hname ▸ hresponse
    -- No other tenant has this key.
    have hown : ∀ id tenant', s.table.lookup id = some tenant' →
        ⟨id, tenant'.name, response.apiKey⟩ ∈ s.issued → id = response.id ∧ tenant' = tenant := by
      intro id tenant' hrow' hissued'
      have heq : id = response.id :=
        congrArg TenantWithKey.id (h.eq_of_apiKey_eq hissued' hresponse rfl)
      subst heq
      exact ⟨rfl, Option.some.inj (hrow'.symm.trans hrow)⟩
    rw [hvalidate]
    refine ⟨fun context => ⟨fun hok => ?_, ?_⟩, ⟨fun herror => ?_, ?_⟩, iff_of_false ?_ fun hnone =>
      hnone response hresponse rfl⟩
    · split at hok
      · rename_i hactive
        cases hok
        exact ⟨tenant, hrow, hactive, rfl, hmine⟩
      · cases hok
    · rintro ⟨tenant', hrow', hactive, hcontext, hissued'⟩
      obtain ⟨hid, rfl⟩ := hown context.id tenant' hrow' hissued'
      rw [if_pos hactive, hcontext, hid]
    · split at herror
      · cases herror
      · rename_i hactive
        exact ⟨response.id, tenant, hrow, Bool.not_eq_true _ ▸ hactive, hmine⟩
    · rintro ⟨id, tenant', hrow', hinactive, hissued'⟩
      obtain ⟨-, rfl⟩ := hown id tenant' hrow' hissued'
      rw [hinactive]
      rfl
    · split <;> simp [ApiKeyError.invalid, ApiKeyError.disabled]
  · have hother : ∀ response ∈ s.issued, response.apiKey ≠ apiKey :=
      fun response hresponse heq => hissued ⟨response, hresponse, heq⟩
    rw [h.validateApiKey_other hbcrypt hother]
    refine ⟨fun context => iff_of_false (by simp) ?_, iff_of_false (by simp [ApiKeyError.invalid,
      ApiKeyError.disabled]) ?_, iff_of_true rfl hother⟩
    · rintro ⟨tenant, -, -, -, hin⟩
      exact hother _ hin rfl
    · rintro ⟨id, tenant, -, -, hin⟩
      exact hother _ hin rfl

end

/-- A hash that keeps the bytes, without a salt. -/
def plainBcrypt : Bcrypt where
  hashpw key _ := String.ofList ((key.take 72).map fun byte => Char.ofNat byte.toNat)
  checkpw password hash :=
    hash = String.ofList ((password.take 72).map fun byte => Char.ofNat byte.toNat)

theorem plainBcrypt_documented : plainBcrypt.Documented := by
  have hinj : Function.Injective fun byte : UInt8 => Char.ofNat byte.toNat := by
    intro byte byte' heq
    have hchar : ∀ n < 256, (Char.ofNat n).toNat = n := by decide +kernel
    have hnat := congrArg Char.toNat heq
    dsimp only at hnat
    rw [hchar _ byte.toNat_lt, hchar _ byte'.toNat_lt] at hnat
    exact UInt8.toNat_inj.mp hnat
  intro password key salt
  rw [plainBcrypt, decide_eq_true_eq, String.ofList_inj, (List.map_injective_iff.mpr hinj).eq_iff]
  exact eq_comm

/-- A tenant is registered and deactivated. -/
def disabledTenants : List TenantEvent := [.register 1 0 "first" 5 0, .setActive 1 false]

/-- Its key is refused as that of a disabled tenant, and a longer text as none. -/
theorem apiKeys_exact_disabled :
    validateApiKey plainBcrypt (Tenants.run plainBcrypt disabledTenants).table
        (generateApiKey 5) = .error .disabled ∧
      validateApiKey plainBcrypt (Tenants.run plainBcrypt disabledTenants).table
        (generateApiKey 5 ++ "0") = .error .invalid := by
  have hissued : (Tenants.run plainBcrypt disabledTenants).issued =
      [⟨1, "first", generateApiKey 5⟩] := rfl
  obtain ⟨-, hdisabled, -⟩ :=
    apiKeys_exact plainBcrypt_documented disabledTenants (generateApiKey 5)
  obtain ⟨-, -, hinvalid⟩ :=
    apiKeys_exact plainBcrypt_documented disabledTenants (generateApiKey 5 ++ "0")
  refine ⟨hdisabled.mpr ⟨1, _, rfl, rfl, ?_⟩, hinvalid.mpr fun response hresponse => ?_⟩
  · rw [hissued]
    exact List.mem_singleton.mpr rfl
  · rw [hissued] at hresponse
    obtain rfl := List.mem_singleton.mp hresponse
    decide

end WorkflowEngine

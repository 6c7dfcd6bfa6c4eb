import CaviErp.Base.Proofs.AgentProofs
import CaviErp.Vault.Service

/-!
# What callers can read of the secrets

Nothing. A run is compared with the run of the same operations without the values of their secrets, from
a store without them: at each step the responses agree, and so do the stores, up to these values. The
tenants of a store have their own entries in it, so an operation on one is not noticed by another.
-/

namespace CaviErp

open Py

/-! ## Redaction -/

namespace VaultOp

theorem keys_redact (creds : Obj) : (redact creds).keys = creds.keys := by
  unfold redact Obj.keys
  rw [List.map_map]
  rfl

theorem get?_redact (creds : Obj) {k : String} (hk : secretFields.contains k = false) :
    (redact creds).get? k = creds.get? k := by
  induction creds with
  | nil => rfl
  | cons kv creds ih =>
    obtain ⟨l, v⟩ := kv
    have ih' : List.lookup k (redact creds) = List.lookup k creds := ih
    show List.lookup k ((l, if secretFields.contains l then Json.null else v) :: redact creds) =
      List.lookup k ((l, v) :: creds)
    rw [List.lookup_cons, List.lookup_cons]
    by_cases hkl : k = l
    · subst hkl
      rw [hk, beq_self_eq_true]
      rfl
    · rw [beq_false_of_ne hkl, ih']

theorem redact_set (creds : Obj) (k : String) (v : Json) :
    redact (creds.set k v) = (redact creds).set k (if secretFields.contains k then .null else v) := by
  induction creds with
  | nil => rfl
  | cons kv creds ih =>
    obtain ⟨l, w⟩ := kv
    show redact (if l = k then (k, v) :: creds else (l, w) :: Obj.set creds k v) =
      if l = k then (k, if secretFields.contains k then Json.null else v) :: redact creds
      else (l, if secretFields.contains l then Json.null else w) ::
        Obj.set (redact creds) k (if secretFields.contains k then .null else v)
    by_cases hl : l = k
    · rw [if_pos hl, if_pos hl]
      rfl
    · rw [if_neg hl, if_neg hl, ← ih]
      rfl

theorem redact_idem (creds : Obj) : redact (redact creds) = redact creds := by
  unfold redact
  rw [List.map_map]
  refine List.map_congr_left fun kv _ => ?_
  by_cases hk : secretFields.contains kv.1 = true
  · simp only [Function.comp_apply, if_pos hk]
  · simp only [Function.comp_apply, if_neg hk]

theorem redact_rotated (creds : Obj) (tokenId tokenSecret : Json) :
    redact (Vault.rotated creds tokenId tokenSecret) = Vault.rotated (redact creds) tokenId .null := by
  unfold Vault.rotated
  rw [redact_set, redact_set]
  rfl

end VaultOp

open VaultOp

/-- The stores hold the same, up to the values of secrets. -/
def SameMetadata (s t : InMemoryCredentialStore) : Prop := ∀ k, (s k).map redact = (t k).map redact

/-- The stores hold the same for the tenant. -/
def SameFor (tenantId : Json) (s t : InMemoryCredentialStore) : Prop :=
  ∀ platform key, tenantId.dictKey = some key → s (platform, key) = t (platform, key)

theorem SameMetadata.update {s t : InMemoryCredentialStore} (h : SameMetadata s t) (k : String × Json)
    {entry entry' : Option Obj} (hentry : entry.map redact = entry'.map redact) :
    SameMetadata (Function.update s k entry) (Function.update t k entry') := by
  intro l
  by_cases hl : l = k
  · subst hl
    rw [Function.update_self, Function.update_self, hentry]
  · rw [Function.update_of_ne hl, Function.update_of_ne hl, h l]

/-! ## The lifecycle of credentials -/

namespace Vault

open InMemoryCredentialStore

section Entries

variable {τ : Type} [Name τ] [DecidableEq τ]

/-- What the store answers for the tenant. -/
def entryOf (platform : String) (tenantId : τ) (s : String × τ → Option Obj) :
    Except VaultError (Option Obj) :=
  ((key platform tenantId).map s).mapError .raised

/-- The entry is written where there is one to write and the key is one. -/
def writeEntry (k : Except PyError (String × τ)) (entry : Except VaultError (Option Obj))
    (s : String × τ → Option Obj) : Except VaultError Unit × (String × τ → Option Obj) :=
  match entry, k with
  | .ok entry, .ok k => (.ok (), Function.update s k entry)
  | .ok _, .error e => (.error (.raised e), s)
  | .error e, _ => (.error e, s)

/-- What becomes of the entry of a platform, by what the store answers. -/
abbrev Change := String → Except VaultError (Option Obj) → Except VaultError (Option Obj)

/-- A change of the tenant's entry. -/
def onEntry (tenantId erpPlatform : τ) (f : Change) :
    Action (String × τ → Option Obj) VaultError Unit := fun s =>
  match Name.normalizePlatform erpPlatform with
  | .error e => (.error e, s)
  | .ok platform => writeEntry (key platform tenantId) (f platform (entryOf platform tenantId s)) s

def storedEntry (creds : Obj) : Change := fun platform _ =>
  if missingFields platform creds ≠ [] then
    .error (.raised (.valueError (platform ++ " credentials missing fields: " ++
      (Json.arr ((missingFields platform creds).map Json.str)).pyStr)))
  else .ok (some creds)

def rotatedEntry (tenantId : τ) (tokenId tokenSecret : Json) : Change
  | _, .error e => .error e
  | platform, .ok none => .error (.credentialNotFound
      ("no " ++ platform ++ " credentials stored for tenant " ++ String.ofList (Name.repr tenantId)))
  | _, .ok (some creds) => .ok (some (rotated creds tokenId tokenSecret))

theorem storeCredentials_eq (tenantId erpPlatform : τ) (creds : Obj) (s : String × τ → Option Obj) :
    storeCredentials store tenantId erpPlatform creds s =
      onEntry tenantId erpPlatform (storedEntry creds) s := by
  unfold storeCredentials onEntry storedEntry
  simp only [Action.bind_apply, Action.ofExcept_apply]
  cases Name.normalizePlatform erpPlatform with
  | error e => rfl
  | ok platform =>
    by_cases hmissing : missingFields platform creds ≠ []
    · simp only [if_pos hmissing]
      rfl
    · simp only [if_neg hmissing]
      cases hk : key platform tenantId with
      | error e => simp [ofStore, store, hk, Except.mapError, writeEntry]
      | ok k => simp [ofStore, store, hk, Except.mapError, writeEntry]

theorem rotateToken_eq (tenantId erpPlatform : τ) (tokenId tokenSecret : Json) (s : String × τ → Option Obj) :
    rotateToken store tenantId erpPlatform tokenId tokenSecret s =
      onEntry tenantId erpPlatform (rotatedEntry tenantId tokenId tokenSecret) s := by
  unfold rotateToken onEntry entryOf
  simp only [Action.bind_apply, Action.ofExcept_apply, Action.read_apply]
  cases Name.normalizePlatform erpPlatform with
  | error e => rfl
  | ok platform =>
    cases hk : key platform tenantId with
    | error e => simp [credentials, store, hk, Except.map, Except.mapError, rotatedEntry, writeEntry]
    | ok k =>
      cases hs : s k with
      | none => simp [credentials, store, hk, hs, Except.map, Except.mapError, rotatedEntry, writeEntry]
      | some creds =>
        simp [credentials, store, hk, hs, Except.map, Except.mapError, rotatedEntry, ofStore,
          writeEntry]

theorem revoke_eq (tenantId erpPlatform : τ) (s : String × τ → Option Obj) :
    revoke store tenantId erpPlatform s = onEntry tenantId erpPlatform (fun _ _ => .ok none) s := by
  unfold revoke onEntry
  simp only [Action.bind_apply, Action.ofExcept_apply]
  cases Name.normalizePlatform erpPlatform with
  | error e => rfl
  | ok platform =>
    cases hk : key platform tenantId with
    | error e => simp [ofStore, store, hk, Except.mapError, writeEntry]
    | ok k => simp [ofStore, store, hk, Except.mapError, writeEntry]

end Entries

/-- Changes that agree up to the values of secrets. -/
def SameChange (f g : Change) : Prop :=
  ∀ platform x y, x.map (Option.map redact) = y.map (Option.map redact) →
    (f platform x).map (Option.map redact) = (g platform y).map (Option.map redact)

theorem entryOf_sameMetadata {s t : InMemoryCredentialStore} (h : SameMetadata s t) (platform : String)
    (tenantId : Json) :
    (entryOf platform tenantId s).map (Option.map redact) =
      (entryOf platform tenantId t).map (Option.map redact) := by
  unfold entryOf
  cases key platform tenantId with
  | error e => rfl
  | ok k => exact congrArg Except.ok (h k)

theorem writeEntry_sameMetadata {entry entry' : Except VaultError (Option Obj)}
    (hentry : entry.map (Option.map redact) = entry'.map (Option.map redact))
    {s t : InMemoryCredentialStore} (h : SameMetadata s t) (k : Except PyError (String × Json)) :
    (writeEntry k entry s).1 = (writeEntry k entry' t).1 ∧
      SameMetadata (writeEntry k entry s).2 (writeEntry k entry' t).2 := by
  cases entry with
  | error e =>
    cases entry' with
    | error e' =>
      obtain rfl := Except.error.inj hentry
      exact ⟨rfl, h⟩
    | ok creds => cases hentry
  | ok creds =>
    cases entry' with
    | error e' => cases hentry
    | ok creds' =>
      cases k with
      | error e => exact ⟨rfl, h⟩
      | ok k => exact ⟨rfl, h.update k (Except.ok.inj hentry)⟩

theorem onEntry_sameMetadata {f g : Change} (hfg : SameChange f g) {s t : InMemoryCredentialStore} (h : SameMetadata s t)
    (tenantId erpPlatform : Json) :
    (onEntry tenantId erpPlatform f s).1 = (onEntry tenantId erpPlatform g t).1 ∧
      SameMetadata (onEntry tenantId erpPlatform f s).2 (onEntry tenantId erpPlatform g t).2 := by
  unfold onEntry
  cases Name.normalizePlatform erpPlatform with
  | error e => exact ⟨rfl, h⟩
  | ok platform =>
    exact writeEntry_sameMetadata (hfg platform _ _ (entryOf_sameMetadata h platform tenantId)) h _

theorem storedEntry_redact (creds : Obj) : SameChange (storedEntry creds) (storedEntry (redact creds)) := by
  intro platform x y _
  have hmissing : missingFields platform (redact creds) = missingFields platform creds := by
    unfold missingFields
    rw [keys_redact]
  unfold storedEntry
  rw [hmissing]
  by_cases hnone : missingFields platform creds ≠ []
  · rw [if_pos hnone, if_pos hnone]
  · rw [if_neg hnone, if_neg hnone]
    exact congrArg (fun o => Except.ok (some o)) (redact_idem creds).symm

theorem rotatedEntry_redact (tenantId tokenId tokenSecret : Json) :
    SameChange (rotatedEntry tenantId tokenId tokenSecret) (rotatedEntry tenantId tokenId .null) := by
  intro platform x y h
  cases x with
  | error e =>
    cases y with
    | error e' => exact congrArg Except.error (Except.error.inj h)
    | ok entry => cases h
  | ok entry =>
    cases y with
    | error e' => cases h
    | ok entry' =>
      have hentry := Except.ok.inj h
      cases entry with
      | none =>
        cases entry' with
        | none => rfl
        | some creds' => cases hentry
      | some creds =>
        cases entry' with
        | none => cases hentry
        | some creds' =>
          have hcreds : redact creds = redact creds' := Option.some.inj hentry
          show Except.ok (some (redact (rotated creds tokenId tokenSecret))) =
            Except.ok (some (redact (rotated creds' tokenId .null)))
          rw [redact_rotated, redact_rotated, hcreds]

/-! ## Tenants -/

theorem entryOf_sameFor {tenantId other : Json} (hkey : other.dictKey = tenantId.dictKey)
    {s t : InMemoryCredentialStore} (h : SameFor tenantId s t) (platform : String) :
    entryOf platform other s = entryOf platform other t := by
  unfold entryOf key
  cases hk : Name.dictKey other with
  | none => rfl
  | some k =>
    have hsame := h platform k (hkey.symm.trans hk)
    exact congrArg Except.ok hsame

theorem writeEntry_sameFor {tenantId : Json} {s t : InMemoryCredentialStore} (h : SameFor tenantId s t)
    (k : Except PyError (String × Json)) (entry : Except VaultError (Option Obj)) :
    (writeEntry k entry s).1 = (writeEntry k entry t).1 ∧
      SameFor tenantId (writeEntry k entry s).2 (writeEntry k entry t).2 := by
  cases entry with
  | error e => exact ⟨rfl, h⟩
  | ok entry =>
    cases k with
    | error e => exact ⟨rfl, h⟩
    | ok k =>
      refine ⟨rfl, fun platform key hkey => ?_⟩
      show Function.update s k entry (platform, key) = Function.update t k entry (platform, key)
      by_cases hk : (platform, key) = k
      · rw [hk, Function.update_self, Function.update_self]
      · rw [Function.update_of_ne hk, Function.update_of_ne hk]
        exact h platform key hkey

theorem onEntry_sameFor {tenantId other : Json} (hkey : other.dictKey = tenantId.dictKey)
    (f : Change) {s t : InMemoryCredentialStore} (h : SameFor tenantId s t) (erpPlatform : Json) :
    (onEntry other erpPlatform f s).1 = (onEntry other erpPlatform f t).1 ∧
      SameFor tenantId (onEntry other erpPlatform f s).2 (onEntry other erpPlatform f t).2 := by
  unfold onEntry
  cases Name.normalizePlatform erpPlatform with
  | error e => exact ⟨rfl, h⟩
  | ok platform =>
    simp only [entryOf_sameFor hkey h platform]
    exact writeEntry_sameFor h _ _

theorem writeEntry_frame {tenantId : Json} {k : Except PyError (String × Json)}
    (hk : ∀ platform key, tenantId.dictKey = some key → k ≠ .ok (platform, key))
    (entry : Except VaultError (Option Obj)) (s : InMemoryCredentialStore) :
    SameFor tenantId (writeEntry k entry s).2 s := by
  intro platform key hkey
  cases entry with
  | error e => rfl
  | ok entry =>
    cases k with
    | error e => rfl
    | ok k =>
      have hne : (platform, key) ≠ k := fun h => hk platform key hkey (congrArg Except.ok h.symm)
      exact Function.update_of_ne hne entry s

/-- The entries of other tenants stay as they are. -/
theorem onEntry_frame {tenantId other : Json} (hkey : other.dictKey ≠ tenantId.dictKey)
    (f : Change) (s : InMemoryCredentialStore) (erpPlatform : Json) :
    SameFor tenantId (onEntry other erpPlatform f s).2 s := by
  unfold onEntry
  cases Name.normalizePlatform erpPlatform with
  | error e => exact fun _ _ _ => rfl
  | ok platform =>
    refine writeEntry_frame (fun platform' k htenant hk => ?_) _ s
    unfold key at hk
    cases hother : Name.dictKey other with
    | none =>
      rw [hother] at hk
      cases hk
    | some l =>
      rw [hother] at hk
      obtain ⟨-, rfl⟩ := Prod.mk.inj (Except.ok.inj hk)
      exact hkey (hother.trans htenant.symm)

/-! ## Vending -/

theorem vendToken_sameFor {tenantId other : Json} (hkey : other.dictKey = tenantId.dictKey)
    {s t : InMemoryCredentialStore} (h : SameFor tenantId s t) (erpPlatform : Json) (ttl now : ℚ) :
    vendToken store other erpPlatform ttl now s = vendToken store other erpPlatform ttl now t := by
  have hget : ∀ platform, store.get platform other s = store.get platform other t := by
    intro platform
    show (key platform other).map s = (key platform other).map t
    unfold key
    cases hk : Name.dictKey other with
    | none => rfl
    | some k =>
      have hsame := h platform k (hkey.symm.trans hk)
      exact congrArg Except.ok hsame
  unfold vendToken credentials
  simp only [hget]

theorem field_redact {creds creds' : Obj} (h : redact creds = redact creds') {k : String}
    (hk : secretFields.contains k = false) : field creds k = field creds' k := by
  have hget : Obj.get? creds k = Obj.get? creds' k := by
    rw [← get?_redact creds hk, h, get?_redact creds' hk]
  unfold field item
  simp only [hget]

/-- The credentials in an answer of the store. -/
def found (platform : String) (tenantId : Json) : Except VaultError (Option Obj) → Except VaultError Obj
  | .error e => .error e
  | .ok none => .error (.credentialNotFound
      ("no " ++ platform ++ " credentials stored for tenant " ++ String.ofList (Name.repr tenantId)))
  | .ok (some creds) => .ok creds

theorem credentials_eq (platform : String) (tenantId : Json) (s : InMemoryCredentialStore) :
    credentials store platform tenantId s = found platform tenantId (entryOf platform tenantId s) := by
  unfold credentials entryOf
  have hget : store.get platform tenantId s = (key platform tenantId).map s := rfl
  rw [hget]
  cases key platform tenantId with
  | error e => rfl
  | ok k =>
    simp only [Except.map, Except.mapError]
    cases s k with
    | none => rfl
    | some creds => rfl

theorem credentials_sameMetadata {s t : InMemoryCredentialStore} (h : SameMetadata s t)
    (platform : String) (tenantId : Json) :
    (credentials store platform tenantId s).map redact =
      (credentials store platform tenantId t).map redact := by
  have hfound : ∀ x : Except VaultError (Option Obj), (found platform tenantId x).map redact =
      found platform tenantId (x.map (Option.map redact)) := by
    intro x
    match x with
    | .error e => rfl
    | .ok none => rfl
    | .ok (some creds) => rfl
  rw [credentials_eq, credentials_eq, hfound, hfound, entryOf_sameMetadata h]

/-- The token made of credentials. -/
def tokenOf (tenantId : Json) (platform : String) (ttl now : ℚ) (creds : Obj) :
    Except VaultError VendedToken := do
  let accountId ← field creds "account_id"
  let consumerKey ← field creds "consumer_key"
  let tokenId ← field creds "token_id"
  return {
    tenantId, erpPlatform := platform, realm := accountId.pyStr, consumerKey, tokenId
    scopes := defaultScopes platform, issuedAt := now, expiresAt := Binary64.add now ttl, signer := creds }

theorem vendToken_eq (tenantId erpPlatform : Json) (ttl now : ℚ) (s : InMemoryCredentialStore) :
    vendToken store tenantId erpPlatform ttl now s = (Name.normalizePlatform erpPlatform).bind fun platform =>
      (credentials store platform tenantId s).bind (tokenOf tenantId platform ttl now) := rfl

theorem tokenOf_redact {creds creds' : Obj} (h : redact creds = redact creds') (tenantId : Json)
    (platform : String) (ttl now : ℚ) :
    (tokenOf tenantId platform ttl now creds).map TokenOf.metadata =
      (tokenOf tenantId platform ttl now creds').map TokenOf.metadata := by
  unfold tokenOf
  rw [field_redact h (k := "account_id") rfl, field_redact h (k := "consumer_key") rfl,
    field_redact h (k := "token_id") rfl]
  cases field creds' "account_id" with
  | error e => rfl
  | ok accountId =>
    cases field creds' "consumer_key" with
    | error e => rfl
    | ok consumerKey =>
      cases field creds' "token_id" with
      | error e => rfl
      | ok tokenId => rfl

theorem vendToken_sameMetadata {s t : InMemoryCredentialStore} (h : SameMetadata s t)
    (tenantId erpPlatform : Json) (ttl now : ℚ) :
    (vendToken store tenantId erpPlatform ttl now s).map TokenOf.metadata =
      (vendToken store tenantId erpPlatform ttl now t).map TokenOf.metadata := by
  rw [vendToken_eq, vendToken_eq]
  cases Name.normalizePlatform erpPlatform with
  | error e => rfl
  | ok platform =>
    simp only [Except.bind]
    have hcreds := credentials_sameMetadata h platform tenantId
    cases hs : credentials store platform tenantId s with
    | error e =>
      cases ht : credentials store platform tenantId t with
      | error e' =>
        rw [hs, ht] at hcreds
        obtain rfl := Except.error.inj hcreds
        rfl
      | ok creds' =>
        rw [hs, ht] at hcreds
        cases hcreds
    | ok creds =>
      cases ht : credentials store platform tenantId t with
      | error e' =>
        rw [hs, ht] at hcreds
        cases hcreds
      | ok creds' =>
        rw [hs, ht] at hcreds
        exact tokenOf_redact (Except.ok.inj hcreds) tenantId platform ttl now

end Vault

/-! ## Who tells about a token -/

/-- Two outcomes that differ in the signer at most. -/
theorem vended_cases {x y : Except VaultError VendedToken}
    (h : x.map TokenOf.metadata = y.map TokenOf.metadata) :
    (∃ e, x = .error e ∧ y = .error e) ∨
      ∃ token token', x = .ok token ∧ y = .ok token' ∧ token.metadata = token'.metadata := by
  cases x with
  | error e =>
    cases y with
    | error e' =>
      obtain rfl := Except.error.inj h
      exact .inl ⟨e, rfl, rfl⟩
    | ok token' => cases h
  | ok token =>
    cases y with
    | error e' => cases h
    | ok token' => exact .inr ⟨token, token', rfl, rfl, Except.ok.inj h⟩

theorem vend_of_metadata {s t : InMemoryCredentialStore} {body : Obj} {ttl now : ℚ}
    (h : (Vault.vendToken InMemoryCredentialStore.store (body.get "tenant_id") (body.get "erp_platform")
        ttl now s).map TokenOf.metadata =
      (Vault.vendToken InMemoryCredentialStore.store (body.get "tenant_id") (body.get "erp_platform")
        ttl now t).map TokenOf.metadata) :
    VaultService.vend InMemoryCredentialStore.store body ttl now s =
      VaultService.vend InMemoryCredentialStore.store body ttl now t := by
  unfold VaultService.vend VaultService.vendFor
  rcases vended_cases h with ⟨e, hs, ht⟩ | ⟨token, token', hs, ht, hmeta⟩
  · rw [hs, ht]
  · have hbody : VaultService.vendedBody id id token = VaultService.vendedBody id id token' := by
      show VaultService.vendedBody id id token.metadata = VaultService.vendedBody id id token'.metadata
      rw [hmeta]
    rw [hs, ht]
    simp only [hbody]

/-- The two worlds have emitted the same since the first two. -/
def EmittedAlike {σ : Type} (w₀ v₀ w v : VaultAgent.World σ) : Prop :=
  ∃ new, w.trace = w₀.trace ++ new ∧ v.trace = v₀.trace ++ new

theorem emittedAlike_indifferent {σ : Type} (w₀ v₀ : VaultAgent.World σ) :
    Indifferent (EmittedAlike w₀ v₀) where
  recorded rt note event h := by
    obtain ⟨new, hw, hv⟩ := h
    refine ⟨new ++ [note], ?_, ?_⟩
    · rw [← List.append_assoc, ← hw]
      rfl
    · rw [← List.append_assoc, ← hv]
      rfl
  published _ _ h := h
  quarantined _ h := h

/-- The agent answers alike where the tokens differ in the signer at most. -/
theorem handle_of_metadata (rt : Runtime) (env : VaultAgent.Env) (event : Event)
    {w v : VaultAgent.World InMemoryCredentialStore}
    (h : ∀ tenantId platform, item event.payload "tenant_id" = .ok tenantId →
      (Vault.vendToken InMemoryCredentialStore.store tenantId platform env.defaultTtl env.now
          w.self).map TokenOf.metadata =
        (Vault.vendToken InMemoryCredentialStore.store tenantId platform env.defaultTtl env.now
          v.self).map TokenOf.metadata) :
    (VaultAgent.handle rt InMemoryCredentialStore.store env event w).1 =
        (VaultAgent.handle rt InMemoryCredentialStore.store env event v).1 ∧
      EmittedAlike w v (VaultAgent.handle rt InMemoryCredentialStore.store env event w).2
        (VaultAgent.handle rt InMemoryCredentialStore.store env event v).2 := by
  have hstart : EmittedAlike w v w v := ⟨[], by simp, by simp⟩
  unfold VaultAgent.handle
  simp only [Action.bind_apply, Action.ofExcept_apply, Action.read_apply]
  cases htenant : item event.payload "tenant_id" with
  | error e => exact ⟨rfl, hstart⟩
  | ok tenantId =>
    cases item event.payload "erp_platform" with
    | error e => exact ⟨rfl, hstart⟩
    | ok platform =>
      have hemit := fun subject payload => BaseAgent.emit_respects (emittedAlike_indifferent w v) rt
        env.infra (VaultAgent.answer env event subject payload)
        (VaultAgent.answer env event subject payload) w v hstart
      rcases vended_cases (h tenantId platform htenant) with ⟨e, hs, ht⟩ | ⟨token, token', hs, ht, hmeta⟩
      · simp only [hs, ht]
        cases e with
        | unsupportedPlatform text => exact hemit _ _
        | credentialNotFound text => exact hemit _ _
        | raised e => exact ⟨rfl, hstart⟩
      · have hpayload : VaultAgent.grantedPayload env.iso token =
            VaultAgent.grantedPayload env.iso token' := by
          show VaultAgent.grantedPayload env.iso token.metadata =
            VaultAgent.grantedPayload env.iso token'.metadata
          rw [hmeta]
        simp only [hs, ht, hpayload]
        exact hemit _ _

theorem handle_self {σ : Type} (rt : Runtime) (store : CredentialStore σ) (env : VaultAgent.Env)
    (event : Event) (w : VaultAgent.World σ) :
    (VaultAgent.handle rt store env event w).2.self = w.self := by
  unfold VaultAgent.handle
  simp only [Action.bind_apply, Action.ofExcept_apply, Action.read_apply]
  cases item event.payload "tenant_id" with
  | error e => rfl
  | ok tenantId =>
    cases item event.payload "erp_platform" with
    | error e => rfl
    | ok platform =>
      simp only
      cases Vault.vendToken store tenantId platform env.defaultTtl env.now w.self with
      | ok token => exact BaseAgent.emit_self ..
      | error e =>
        cases e with
        | unsupportedPlatform text => exact BaseAgent.emit_self ..
        | credentialNotFound text => exact BaseAgent.emit_self ..
        | raised e => rfl

namespace VaultOp

open InMemoryCredentialStore (store)

variable {rt : Runtime} {env : VaultAgent.Env}

/-- The operation asks for a token, and changes no credentials. -/
def vends : VaultOp → Bool
  | vend _ => true
  | request _ => true
  | vendToken _ _ _ _ => true
  | _ => false

theorem perform_vends (rt : Runtime) (env : VaultAgent.Env) {op : VaultOp} (hop : op.vends = true)
    {w v : VaultAgent.World InMemoryCredentialStore}
    (h : ∀ erpPlatform ttl now,
      (Vault.vendToken store op.tenant erpPlatform ttl now w.self).map TokenOf.metadata =
        (Vault.vendToken store op.tenant erpPlatform ttl now v.self).map TokenOf.metadata) :
    (perform rt store env op w).1.metadata = (perform rt store env op v).1.metadata ∧
      (perform rt store env op w).2.self = w.self ∧ (perform rt store env op v).2.self = v.self := by
  cases op with
  | storeCredentials tenantId erpPlatform creds => cases hop
  | rotateToken tenantId erpPlatform tokenId tokenSecret => cases hop
  | revoke tenantId erpPlatform => cases hop
  | vend body =>
    have hreply := vend_of_metadata (h (body.get "erp_platform") env.defaultTtl env.now)
    exact ⟨congrArg VaultResponse.replied hreply, rfl, rfl⟩
  | request event =>
    obtain ⟨hresult, new, hw, hv⟩ := handle_of_metadata rt env event (w := w) (v := v) fun tenantId
        platform hitem => by
      have htenant : tenant (request event) = tenantId := by
        show (item event.payload "tenant_id").toOption.getD .null = tenantId
        rw [hitem]
        rfl
      exact htenant ▸ h platform env.defaultTtl env.now
    refine ⟨?_, handle_self rt store env event w, handle_self rt store env event v⟩
    show VaultResponse.handled _ _ = VaultResponse.handled _ _
    rw [hresult, hw, hv, List.drop_left, List.drop_left]
  | vendToken tenantId erpPlatform scopes ttl =>
    refine ⟨?_, rfl, rfl⟩
    show VaultResponse.vended _ = VaultResponse.vended _
    rcases vended_cases (h erpPlatform (ttl.getD env.defaultTtl) env.now) with
      ⟨e, hs, ht⟩ | ⟨token, token', hs, ht, hmeta⟩
    · rw [show Vault.vendToken store tenantId _ _ _ _ = _ from hs,
        show Vault.vendToken store tenantId _ _ _ _ = _ from ht]
    · have hscopes : ({ token with scopes := scopes.getD token.scopes } : VendedToken).metadata =
          ({ token' with scopes := scopes.getD token'.scopes } : VendedToken).metadata := by
        show { token.metadata with scopes := scopes.getD token.metadata.scopes } =
          { token'.metadata with scopes := scopes.getD token'.metadata.scopes }
        rw [hmeta]
      rw [show Vault.vendToken store tenantId _ _ _ _ = _ from hs,
        show Vault.vendToken store tenantId _ _ _ _ = _ from ht]
      exact congrArg (fun token => VaultResponse.vended (.ok token)) hscopes

/-- The change of credentials that an operation makes, as it is made on the tenant's entry. -/
theorem perform_lifecycle (rt : Runtime) (env : VaultAgent.Env) {op : VaultOp} (hop : op.vends = false) :
    ∃ erpPlatform f, ∀ w : VaultAgent.World InMemoryCredentialStore,
      perform rt store env op w = (.done (Vault.onEntry op.tenant erpPlatform f w.self).1,
        { w with self := (Vault.onEntry op.tenant erpPlatform f w.self).2 }) := by
  cases op with
  | storeCredentials tenantId erpPlatform creds =>
    refine ⟨erpPlatform, Vault.storedEntry creds, fun w => ?_⟩
    simp only [perform, Vault.storeCredentials_eq, tenant]
  | rotateToken tenantId erpPlatform tokenId tokenSecret =>
    refine ⟨erpPlatform, Vault.rotatedEntry tenantId tokenId tokenSecret, fun w => ?_⟩
    simp only [perform, Vault.rotateToken_eq, tenant]
  | revoke tenantId erpPlatform =>
    refine ⟨erpPlatform, fun _ _ => .ok none, fun w => ?_⟩
    simp only [perform, Vault.revoke_eq, tenant]
  | vend body => cases hop
  | request event => cases hop
  | vendToken tenantId erpPlatform scopes ttl => cases hop

/-- One step of the run and of the run without the secrets. -/
theorem perform_redacted (op : VaultOp) {w v : VaultAgent.World InMemoryCredentialStore}
    (h : SameMetadata w.self v.self) :
    (perform rt store env op w).1.metadata = (perform rt store env op.redacted v).1.metadata ∧
      SameMetadata (perform rt store env op w).2.self (perform rt store env op.redacted v).2.self := by
  have hvends : ∀ op : VaultOp, op.vends = true →
      (perform rt store env op w).1.metadata = (perform rt store env op v).1.metadata ∧
        SameMetadata (perform rt store env op w).2.self (perform rt store env op v).2.self := by
    intro op hop
    obtain ⟨hout, hw, hv⟩ := perform_vends rt env hop
      fun erpPlatform ttl now => Vault.vendToken_sameMetadata h op.tenant erpPlatform ttl now
    rw [hw, hv]
    exact ⟨hout, h⟩
  cases op with
  | storeCredentials tenantId erpPlatform creds =>
    obtain ⟨hout, hself⟩ := Vault.onEntry_sameMetadata (Vault.storedEntry_redact creds) h tenantId
      erpPlatform
    rw [← Vault.storeCredentials_eq, ← Vault.storeCredentials_eq] at hout hself
    exact ⟨congrArg VaultResponse.done hout, hself⟩
  | rotateToken tenantId erpPlatform tokenId tokenSecret =>
    obtain ⟨hout, hself⟩ := Vault.onEntry_sameMetadata
      (Vault.rotatedEntry_redact tenantId tokenId tokenSecret) h tenantId erpPlatform
    rw [← Vault.rotateToken_eq, ← Vault.rotateToken_eq] at hout hself
    exact ⟨congrArg VaultResponse.done hout, hself⟩
  | revoke tenantId erpPlatform =>
    obtain ⟨hout, hself⟩ := Vault.onEntry_sameMetadata (f := fun _ _ => .ok none)
      (fun _ _ _ _ => rfl) h tenantId erpPlatform
    rw [← Vault.revoke_eq, ← Vault.revoke_eq] at hout hself
    exact ⟨congrArg VaultResponse.done hout, hself⟩
  | vend body => exact hvends _ rfl
  | request event => exact hvends _ rfl
  | vendToken tenantId erpPlatform scopes ttl => exact hvends _ rfl

/-- One step of the run and of the run without the other tenants. -/
theorem perform_sameFor {tenantId : Json} {op : VaultOp} (hop : op.on tenantId = true)
    {w v : VaultAgent.World InMemoryCredentialStore} (h : SameFor tenantId w.self v.self) :
    (perform rt store env op w).1.metadata = (perform rt store env op v).1.metadata ∧
      SameFor tenantId (perform rt store env op w).2.self (perform rt store env op v).2.self := by
  have hkey : op.tenant.dictKey = tenantId.dictKey := eq_of_beq hop
  cases hv : op.vends with
  | true =>
    obtain ⟨hout, hw, hv⟩ := perform_vends rt env hv fun erpPlatform ttl now =>
      congrArg (Except.map TokenOf.metadata) (Vault.vendToken_sameFor hkey h erpPlatform ttl now)
    rw [hw, hv]
    exact ⟨hout, h⟩
  | false =>
    obtain ⟨erpPlatform, f, hperform⟩ := perform_lifecycle rt env hv
    obtain ⟨hout, hself⟩ := Vault.onEntry_sameFor hkey f h erpPlatform
    rw [hperform, hperform]
    exact ⟨congrArg VaultResponse.done hout, hself⟩

theorem perform_frame {tenantId : Json} {op : VaultOp} (hop : op.on tenantId = false)
    (w : VaultAgent.World InMemoryCredentialStore) :
    SameFor tenantId (perform rt store env op w).2.self w.self := by
  have hkey : op.tenant.dictKey ≠ tenantId.dictKey := ne_of_beq_false hop
  cases hv : op.vends with
  | true =>
    obtain ⟨-, hw, -⟩ := perform_vends rt env (w := w) (v := w) hv
      fun _ _ _ => rfl
    rw [hw]
    exact fun _ _ _ => rfl
  | false =>
    obtain ⟨erpPlatform, f, hperform⟩ := perform_lifecycle rt env hv
    rw [hperform]
    exact Vault.onEntry_frame hkey f w.self erpPlatform

/-! ## Runs -/

theorem responses_redacted {w v : VaultAgent.World InMemoryCredentialStore}
    (h : SameMetadata w.self v.self) (calls : List (VaultAgent.Env × VaultOp)) :
    (responses rt store w calls).map Prod.snd =
      (responses rt store v (calls.map fun c => (c.1, c.2.redacted))).map Prod.snd := by
  refine Unwinding.outputs_forall₂ (fun c d => d = (c.1, c.2.redacted))
    (fun w v => SameMetadata w.self v.self) ?_ ?_ h
  · rintro c _ rfl w v hsame
    exact perform_redacted c.2 hsame
  · rw [List.forall₂_map_right_iff]
    exact List.forall₂_same.mpr fun _ _ => rfl

theorem responses_sameFor (tenantId : Json) (w : VaultAgent.World InMemoryCredentialStore)
    (calls : List (VaultAgent.Env × VaultOp)) :
    (responses rt store w calls).filter (fun x => x.1.2.on tenantId) =
      responses rt store w (calls.filter fun c => c.2.on tenantId) := by
  refine Unwinding.outputs_filter (fun c : VaultAgent.Env × VaultOp => c.2.on tenantId)
    (fun w v => SameFor tenantId w.self v.self) ?_ ?_ (fun _ _ _ => rfl)
  · exact fun c _ hkeep w v hsame => perform_sameFor hkeep hsame
  · intro c _ hdrop w v hsame platform key hkey
    rw [perform_frame hdrop w platform key hkey]
    exact hsame platform key hkey

/-- **What callers can read depends on no secret and on no other tenant.** Two Vaults that hold the same
up to the values of secrets, driven by the same calls up to the values of secrets, give the same
responses, replies, events and tokens (their signers apart); and the responses to the calls for a tenant
are those of the run of these calls alone. -/
theorem responses_public (rt : Runtime) {w w' : VaultAgent.World InMemoryCredentialStore}
    (hstores : SameMetadata w.self w'.self) {calls calls' : List (VaultAgent.Env × VaultOp)}
    (hcalls : List.Forall₂ (fun c c' => c.1 = c'.1 ∧ c.2.redacted = c'.2.redacted) calls calls') :
    (responses rt store w calls).map Prod.snd = (responses rt store w' calls').map Prod.snd ∧
      ∀ tenantId, (responses rt store w calls).filter (fun x => x.1.2.on tenantId) =
        responses rt store w (calls.filter fun c => c.2.on tenantId) := by
  refine ⟨?_, fun tenantId => responses_sameFor tenantId w calls⟩
  have hredacted : calls.map (fun c => (c.1, c.2.redacted)) =
      calls'.map fun c => (c.1, c.2.redacted) := by
    induction hcalls with
    | nil => rfl
    | cons hc _ ih => rw [List.map_cons, List.map_cons, ih, hc.1, hc.2]
  rw [responses_redacted hstores calls, hredacted]
  exact (responses_redacted (fun _ => rfl) calls').symm

/-- Credentials with the given secrets. -/
def netsuiteCreds (consumerSecret tokenSecret : String) : Obj :=
  [("account_id", "1234567_SB1"), ("consumer_key", "ck"), ("consumer_secret", .str consumerSecret),
    ("token_id", "ti"), ("token_secret", .str tokenSecret)]

def localEnv (now : ℚ) : VaultAgent.Env where
  now := now
  iso := fun _ => "2026-01-01T00:00:00+00:00"
  requestedAt := "2026-01-01T00:00:00+00:00"
  uuid := "00000000-0000-0000-0000-000000000010"

/-- A tenant is onboarded, its token replaced and vended. -/
def onboarding (consumerSecret tokenSecret newSecret : String) : List (VaultAgent.Env × VaultOp) :=
  [(localEnv 0, .storeCredentials "acme" " NS " (netsuiteCreds consumerSecret tokenSecret)),
    (localEnv 1, .rotateToken "acme" "netsuite" "ti-2" (.str newSecret)),
    (localEnv 2, .vend [("tenant_id", "acme"), ("erp_platform", "NetSuite")])]

/-- The hypotheses hold for an onboarding with one set of secrets and with another. -/
theorem responses_public_onboarding :
    (responses (.repository "schema_registry/schemas" (fun _ _ => "") id) store { self := fun _ => none }
        (onboarding "cs-1" "ts-1" "ts-2")).map Prod.snd =
      (responses (.repository "schema_registry/schemas" (fun _ _ => "") id) store
        { self := fun _ => none } (onboarding "cs-3" "ts-3" "ts-4")).map Prod.snd :=
  (responses_public _ (fun _ => rfl) (.cons ⟨rfl, rfl⟩ (.cons ⟨rfl, rfl⟩ (.cons ⟨rfl, rfl⟩ .nil)))).1

end VaultOp

end CaviErp

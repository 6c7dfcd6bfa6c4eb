import CaviErp.Vault.Proofs.KeyringProofs

/-!
# What the history of a tenant decides

The credentials of a tenant are those that were stored last, with the tokens put into them since, unless they
were revoked: whatever else the Vault was asked for, for other tenants or by the service and the agent. A token
signs with them, and seeding from a `.env` file is one way of storing them.
-/

namespace CaviErp

open Py

namespace Vault

/-! ## One change -/

/-- A change is made of one entry. -/
theorem onEntry_entry (t tenantId platform : String) (erpPlatform : Json) (f : Change)
    (s : InMemoryCredentialStore) :
    (onEntry (.str t) erpPlatform f s).2 (platform, .str tenantId) =
      if Json.str t = .str tenantId ∧ normalizePlatform erpPlatform = .ok platform then
        (f platform (.ok (s (platform, .str tenantId)))).toOption.getD (s (platform, .str tenantId))
      else s (platform, .str tenantId) := by
  unfold onEntry
  rw [Name.normalizePlatform_json]
  cases hplatform : normalizePlatform erpPlatform with
  | error e =>
    rw [if_neg fun h => nomatch h.2]
  | ok found =>
    dsimp only
    have hentry : entryOf found (.str t) s = .ok (s (found, .str t)) := rfl
    rw [hentry]
    by_cases hsame : Json.str t = .str tenantId ∧ (Except.ok found : Except VaultError String) = .ok platform
    · rw [if_pos hsame]
      obtain ⟨htenant, hfound⟩ := hsame
      obtain rfl := Except.ok.inj hfound
      rw [← htenant]
      cases f found (.ok (s (found, .str t))) with
      | error e => rfl
      | ok entry => exact Function.update_self ..
    · rw [if_neg hsame]
      cases f found (.ok (s (found, .str t))) with
      | error e => rfl
      | ok entry =>
        have hne : (platform, Json.str tenantId) ≠ (found, Json.str t) := by
          intro heq
          obtain ⟨hfound, htenant⟩ := Prod.mk.inj heq
          exact hsame ⟨htenant.symm, congrArg Except.ok hfound.symm⟩
        exact Function.update_of_ne hne entry s

/-- The name of a platform is an alias of it. -/
theorem normalizePlatform_ok {erpPlatform : Json} {platform : String}
    (h : normalizePlatform erpPlatform = .ok platform) : platform = "netsuite" := by
  unfold normalizePlatform at h
  split at h
  · split at h
    · rename_i found hlookup
      obtain rfl := Except.ok.inj h
      rcases List.lookup_eq_some_iff.mp hlookup with ⟨pre, post, heq, -⟩
      have hmem : ∀ kv ∈ platformAliases, kv.2 = "netsuite" := by decide
      exact hmem _ (heq ▸ List.mem_append_right _ List.mem_cons_self)
    · cases h
  · cases h

/-- Seeding is storing what the values of the file make. -/
theorem loadFromDotenv_eq {σ : Type} (st : CredentialStore σ) (lower : String → String)
    (tenantId erpPlatform : Json) (raw : List (String × Option String)) :
    loadFromDotenv st lower tenantId erpPlatform raw =
      storeCredentials st tenantId erpPlatform (dotenvCredentials lower "netsuite" raw) := by
  funext s
  unfold loadFromDotenv
  simp only [Action.bind_apply, Action.ofExcept_apply]
  cases hplatform : normalizePlatform erpPlatform with
  | error e =>
    unfold storeCredentials
    simp only [Action.bind_apply, Action.ofExcept_apply, Name.normalizePlatform_json, hplatform]
  | ok platform =>
    obtain rfl := normalizePlatform_ok hplatform
    have hname : normalizePlatform (.str "netsuite") = .ok "netsuite" := rfl
    unfold storeCredentials
    simp only [Action.bind_apply, Action.ofExcept_apply, Name.normalizePlatform_json, hplatform, hname]

end Vault

namespace VaultOp

open InMemoryCredentialStore (store)

/-! ## One operation -/

/-- An operation makes of the credentials of a tenant what it does, whosever they are. -/
theorem perform_effect (rt : Runtime) (env : VaultAgent.Env) {op : VaultOp} (htyped : op.Typed)
    (platform tenantId : String) (w : VaultAgent.World InMemoryCredentialStore) :
    (perform rt store env op w).2.self (platform, .str tenantId) =
      effect platform tenantId (w.self (platform, .str tenantId)) op := by
  have hvends : op.vends = true → (perform rt store env op w).2.self = w.self := fun hop =>
    (perform_vends rt env hop (v := w) fun _ _ _ => rfl).2.1
  cases op with
  | storeCredentials t erpPlatform creds =>
    obtain ⟨⟨t, rfl⟩, -⟩ := htyped
    simp only [perform, Vault.storeCredentials_eq, Vault.onEntry_entry, effect]
    by_cases hsame : Json.str t = .str tenantId ∧ Vault.normalizePlatform erpPlatform = .ok platform
    · rw [if_pos hsame]
      unfold Vault.storedEntry
      by_cases hmissing : Vault.missingFields platform creds = []
      · rw [if_neg (not_not.mpr hmissing), if_pos ⟨hsame.1, hsame.2, hmissing⟩]
        rfl
      · rw [if_pos hmissing, if_neg fun h => hmissing h.2.2]
        rfl
    · rw [if_neg hsame, if_neg fun h => hsame ⟨h.1, h.2.1⟩]
  | rotateToken t erpPlatform tokenId tokenSecret =>
    obtain ⟨⟨t, rfl⟩, -⟩ := htyped
    simp only [perform, Vault.rotateToken_eq, Vault.onEntry_entry, effect]
    cases w.self (platform, .str tenantId) <;> rfl
  | revoke t erpPlatform =>
    obtain ⟨t, rfl⟩ := htyped
    simp only [perform, Vault.revoke_eq, Vault.onEntry_entry, effect]
    rfl
  | vend body =>
    rw [hvends rfl]
    rfl
  | request event =>
    rw [hvends rfl]
    rfl
  | vendToken t erpPlatform scopes ttl =>
    rw [hvends rfl]
    rfl

/-! ## Runs -/

/-- A run makes of the credentials of a tenant what its operations do. -/
theorem performed_effects (rt : Runtime) {calls : List (VaultAgent.Env × VaultOp)}
    (htyped : ∀ c ∈ calls, c.2.Typed) (platform tenantId : String)
    (w : VaultAgent.World InMemoryCredentialStore) :
    (performed rt store w calls).self (platform, .str tenantId) =
      (calls.map Prod.snd).foldl (effect platform tenantId) (w.self (platform, .str tenantId)) := by
  induction calls generalizing w with
  | nil => rfl
  | cons c calls ih =>
    have hrest := ih (fun d hd => htyped d (List.mem_cons_of_mem _ hd)) (perform rt store c.1 c.2 w).2
    rw [perform_effect rt c.1 (htyped c List.mem_cons_self)] at hrest
    exact hrest

/-- A keyring that mirrors a sound dictionary is sound. -/
theorem soundStore_mirrors {κ : Type} {kr : Keyring κ} {ns : String} {first k : κ}
    {data : InMemoryCredentialStore} (h : KeyringCredentialStore.Mirrors kr ns first data k)
    (hdata : VaultHandler.Complete data) :
    VaultHandler.SoundStore Json.str (KeyringCredentialStore.store kr ns) k := by
  refine ⟨fun platform t => ⟨_, h.get platform t⟩, fun platform t creds hget => ?_⟩
  rw [h.get platform t] at hget
  exact hdata _ creds (Except.ok.inj hget)

/-- **What a token signs with is what the history of the tenant says.** After any run, whose tenants are texts and
whose secrets have no floats, over a keyring that works and had no passwords of the namespace, a tenant whose
credentials were never stored on the platform, or were revoked since, is vended no token; and a token that is
vended signs with the credentials stored last and the token put into them since, until its lifetime is over. -/
theorem vends_history (rt : Runtime) {κ : Type} {kr : Keyring κ} (hkr : kr.Lawful) {ns : String} {first : κ}
    (hunused : KeyringCredentialStore.Unused kr ns first)
    {calls : List (VaultAgent.Env × VaultOp)} (htyped : ∀ c ∈ calls, c.2.Typed) {erpPlatform platform : String}
    (hplatform : Vault.normalizePlatform (.str erpPlatform) = .ok platform) (tenantId : String) (ttl now : ℚ) :
    let vended := Vault.vendToken (KeyringCredentialStore.store kr ns) (.str tenantId) (.str erpPlatform) ttl now
      (performed rt (KeyringCredentialStore.store kr ns) { self := first } calls).self
    match credentialsAfter platform tenantId (calls.map Prod.snd) with
    | none => ∃ text, vended = .error (.credentialNotFound text)
    | some creds => ∃ token, vended = .ok token ∧ token.signer = creds ∧
        token.expiresAt = Binary64.add now ttl := by
  have hstart : Alike (KeyringCredentialStore.Mirrors kr ns first)
      ({ self := fun _ => none } : VaultAgent.World InMemoryCredentialStore)
      ({ self := first } : VaultAgent.World κ) :=
    ⟨first, rfl, KeyringCredentialStore.mirrors_empty hunused⟩
  obtain ⟨-, t, hworld, hmirrors⟩ := answers_sim rt (KeyringCredentialStore.simulates hkr ns first) htyped hstart
  have hcomplete : VaultHandler.Complete (performed rt store { self := fun _ => none } calls).self :=
    Unwinding.after_invariant (fun _ (v : VaultAgent.World InMemoryCredentialStore) =>
      VaultHandler.Complete v.self) (fun _ _ c hv => VaultHandler.perform_complete rt c.1 c.2 hv) calls []
      VaultHandler.complete_empty
  have hcreds := performed_effects rt htyped platform tenantId { self := fun _ => none }
  have hget := hmirrors.get platform tenantId
  rw [hcreds] at hget
  rw [hworld]
  intro vended
  have hhistory : credentialsAfter platform tenantId (calls.map Prod.snd) =
      (calls.map Prod.snd).foldl (effect platform tenantId) none := rfl
  rw [← hhistory] at hget
  rcases Vault.vendToken_cases (soundStore_mirrors hmirrors hcomplete) tenantId
      (Vault.normalizePlatform_str erpPlatform) ttl now with
    ⟨hno, -⟩ | ⟨platform', hplatform', hcases⟩
  · rw [Name.normalizePlatform_json] at hno
    exact absurd hplatform (hno platform)
  · rw [Name.normalizePlatform_json] at hplatform'
    obtain rfl := Except.ok.inj (hplatform.symm.trans hplatform')
    rcases hcases with ⟨hnone, text, hvended⟩ | ⟨creds, token, hsome, hvended, hsigner, hexpires, -⟩
    · rw [Except.ok.inj (hget.symm.trans hnone)]
      exact ⟨text, hvended⟩
    · rw [Except.ok.inj (hget.symm.trans hsome)]
      exact ⟨token, hvended, hsigner, hexpires⟩

theorem vends_history_onboarding :
    ∃ token, Vault.vendToken (KeyringCredentialStore.store passwords "cavi-vault") "acme" "NS" 300 3
        (performed (.repository "schema_registry/schemas" (fun _ _ => "") id)
          (KeyringCredentialStore.store passwords "cavi-vault") { self := fun _ => none }
          (onboarding "cs-1" "ts-1" "ts-2")).self = .ok token ∧
      token.signer = Vault.rotated (netsuiteCreds "cs-1" "ts-1") "ti-2" "ts-2" ∧
      token.expiresAt = Binary64.add 3 300 :=
  vends_history (.repository "schema_registry/schemas" (fun _ _ => "") id) passwords_lawful (fun _ _ => rfl)
    (onboarding_typed "cs-1" "ts-1" "ts-2") (show Vault.normalizePlatform (.str "NS") = .ok "netsuite" from rfl)
    "acme" 300 3

end VaultOp

end CaviErp

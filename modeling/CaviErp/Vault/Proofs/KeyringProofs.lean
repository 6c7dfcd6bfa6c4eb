import CaviErp.Base.Proofs.AgentProofs
import CaviErp.Lib.Proofs.AlikeProofs
import CaviErp.Vault.Keyring
import CaviErp.Vault.Proofs.HttpProofs

/-!
# The keyring refines the dictionary

A store that simulates another makes no difference to a Vault. The keyring simulates the store of the tests,
whose entries it holds as JSON, and leaves the passwords of other programs alone.
-/

namespace CaviErp

open Py

/-! ## Worlds that differ in the attributes -/

namespace World

variable {σ τ ω : Type}

/-- The world with other attributes. -/
def withSelf (w : World σ ω) (t : τ) : World τ ω := { self := t, store := w.store, bus := w.bus, trace := w.trace }

end World

theorem BaseAgent.emit_withSelf {σ τ ω : Type} (rt : Runtime) (infra : Infra) (note : ω) (event : Event)
    (w : World σ ω) (t : τ) :
    emit rt infra note event (w.withSelf t) =
      ((emit rt infra note event w).1, (emit rt infra note event w).2.withSelf t) := by
  unfold emit recordEvent publish
  simp only [Action.bind_apply, Action.ofExcept_apply]
  cases rt.registry.validate event.subject event.schemaVersion event.payload with
  | error e => rfl
  | ok u =>
    cases infra.recordEvent event with
    | some text => rfl
    | none => cases infra.publish event.subject.pyStr (dumps .default (.obj event.toDict)) <;> rfl

/-! ## Simulation of stores -/

/-- Related states of the stores answer alike for tenants whose names are texts, as long as what is put is
read back as it was. -/
structure CredentialStore.Simulates {σ τ : Type} (st : CredentialStore σ) (st' : CredentialStore τ)
    (R : σ → τ → Prop) : Prop where
  get : ∀ {s t}, R s t → ∀ service user, st.get service (.str user) s = st'.get service (.str user) t
  exact : ∀ {s t}, R s t → ∀ {service user creds},
    st'.get service (.str user) t = .ok (some creds) → (Json.obj creds).exact = true
  put : ∀ {s t}, R s t → ∀ service user {secret : Obj}, (Json.obj secret).exact = true →
    (st.put service (.str user) secret s).1 = (st'.put service (.str user) secret t).1 ∧
      R (st.put service (.str user) secret s).2 (st'.put service (.str user) secret t).2
  delete : ∀ {s t}, R s t → ∀ service user,
    (st.delete service (.str user) s).1 = (st'.delete service (.str user) t).1 ∧
      R (st.delete service (.str user) s).2 (st'.delete service (.str user) t).2

namespace Vault

theorem mem_set {d : Obj} {k : String} {v : Json} {kv : String × Json} (h : kv ∈ d.set k v) :
    kv = (k, v) ∨ kv ∈ d := by
  induction d with
  | nil => exact .inl (List.mem_singleton.mp h)
  | cons head d ih =>
    obtain ⟨l, w⟩ := head
    rw [Obj.set] at h
    by_cases hl : l = k
    · rw [if_pos hl, List.mem_cons] at h
      exact h.imp_right (List.mem_cons_of_mem _)
    · rw [if_neg hl, List.mem_cons] at h
      rcases h with rfl | h
      · exact .inr List.mem_cons_self
      · exact (ih h).imp_right (List.mem_cons_of_mem _)

theorem exact_set {d : Obj} {v : Json} (h : (Json.obj d).exact = true) (hv : v.exact = true) (k : String) :
    (Json.obj (d.set k v)).exact = true := by
  obtain ⟨hkeys, hitems⟩ := Json.exact_obj h
  rw [Json.exact, Bool.and_eq_true, decide_eq_true_iff, Json.exactItems_iff]
  refine ⟨?_, fun kv hkv => ?_⟩
  · rw [Obj.keys_set]
    by_cases hk : k ∈ d.keys
    · rw [if_pos hk]
      exact hkeys
    · rw [if_neg hk, List.nodup_append]
      refine ⟨hkeys, List.nodup_singleton k, fun a ha b hb heq => ?_⟩
      rw [heq, List.mem_singleton.mp hb] at ha
      exact hk ha
  · rcases mem_set hkv with rfl | hkv
    · exact hv
    · exact hitems kv hkv

/-- Credentials that are read back as they were stay so with another token. -/
theorem exact_rotated {creds : Obj} {tokenId tokenSecret : Json} (h : (Json.obj creds).exact = true)
    (hid : tokenId.exact = true) (hsecret : tokenSecret.exact = true) :
    (Json.obj (rotated creds tokenId tokenSecret)).exact = true :=
  exact_set (exact_set h hid _) hsecret _

section Simulation

variable {σ τ : Type} {st : CredentialStore σ} {st' : CredentialStore τ} {R : σ → τ → Prop}
  (hsim : st.Simulates st' R) {s : σ} {t : τ} (h : R s t)

include hsim h

theorem credentials_sim (platform user : String) :
    credentials st platform (.str user) s = credentials st' platform (.str user) t := by
  unfold credentials
  rw [hsim.get h]

theorem vendToken_sim (user : String) (erpPlatform : Json) (ttl now : ℚ) :
    vendToken st (.str user) erpPlatform ttl now s = vendToken st' (.str user) erpPlatform ttl now t := by
  unfold vendToken
  cases Name.normalizePlatform erpPlatform with
  | error e => rfl
  | ok platform =>
    have hcreds := credentials_sim hsim h platform user
    simp only [bind, Except.bind]
    rw [hcreds]

theorem storeCredentials_sim (user : String) (erpPlatform : Json) {creds : Obj}
    (hcreds : (Json.obj creds).exact = true) :
    (storeCredentials st (.str user) erpPlatform creds s).1 =
        (storeCredentials st' (.str user) erpPlatform creds t).1 ∧
      R (storeCredentials st (.str user) erpPlatform creds s).2
        (storeCredentials st' (.str user) erpPlatform creds t).2 := by
  unfold storeCredentials
  simp only [Action.bind_apply, Action.ofExcept_apply]
  cases Name.normalizePlatform erpPlatform with
  | error e => exact ⟨rfl, h⟩
  | ok platform =>
    by_cases hmissing : missingFields platform creds ≠ []
    · simp only [if_pos hmissing]
      exact ⟨rfl, h⟩
    · simp only [if_neg hmissing]
      obtain ⟨hanswer, hstate⟩ := hsim.put h platform user hcreds
      exact ⟨congrArg (Except.mapError VaultError.raised) hanswer, hstate⟩

theorem rotateToken_sim (user : String) (erpPlatform : Json) {tokenId tokenSecret : Json}
    (hid : tokenId.exact = true) (hsecret : tokenSecret.exact = true) :
    (rotateToken st (.str user) erpPlatform tokenId tokenSecret s).1 =
        (rotateToken st' (.str user) erpPlatform tokenId tokenSecret t).1 ∧
      R (rotateToken st (.str user) erpPlatform tokenId tokenSecret s).2
        (rotateToken st' (.str user) erpPlatform tokenId tokenSecret t).2 := by
  unfold rotateToken
  simp only [Action.bind_apply, Action.ofExcept_apply, Action.read_apply]
  cases Name.normalizePlatform erpPlatform with
  | error e => exact ⟨rfl, h⟩
  | ok platform =>
    have hcreds := credentials_sim hsim h platform user
    simp only [hcreds]
    cases hfound : credentials st' platform (.str user) t with
    | error e => exact ⟨rfl, h⟩
    | ok creds =>
      have hget : st'.get platform (.str user) t = .ok (some creds) := by
        unfold credentials at hfound
        cases hg : st'.get platform (.str user) t with
        | error e =>
          rw [hg] at hfound
          cases hfound
        | ok found =>
          cases found with
          | none =>
            rw [hg] at hfound
            cases hfound
          | some found =>
            rw [hg] at hfound
            cases hfound
            rfl
      have hexact := exact_rotated (hsim.exact h hget) hid hsecret
      obtain ⟨hanswer, hstate⟩ := hsim.put h platform user hexact
      exact ⟨congrArg (Except.mapError VaultError.raised) hanswer, hstate⟩

theorem revoke_sim (user : String) (erpPlatform : Json) :
    (revoke st (.str user) erpPlatform s).1 = (revoke st' (.str user) erpPlatform t).1 ∧
      R (revoke st (.str user) erpPlatform s).2 (revoke st' (.str user) erpPlatform t).2 := by
  unfold revoke
  simp only [Action.bind_apply, Action.ofExcept_apply]
  cases Name.normalizePlatform erpPlatform with
  | error e => exact ⟨rfl, h⟩
  | ok platform =>
    obtain ⟨hanswer, hstate⟩ := hsim.delete h platform user
    exact ⟨congrArg (Except.mapError VaultError.raised) hanswer, hstate⟩

end Simulation

end Vault

namespace VaultAgent

variable {σ τ : Type} {st : CredentialStore σ} {st' : CredentialStore τ} {R : σ → τ → Prop}

/-- What is handled alike leaves worlds that differ in the attributes alone. -/
theorem handle_sim (rt : Runtime) (hsim : st.Simulates st' R) (env : Env) {event : Event} {w : World σ} {t : τ}
    (h : R w.self t)
    (htenant : ∀ tenantId, item event.payload "tenant_id" = .ok tenantId → ∃ user, tenantId = .str user) :
    handle rt st' env event (w.withSelf t) =
      ((handle rt st env event w).1, (handle rt st env event w).2.withSelf t) := by
  unfold handle
  simp only [Action.bind_apply, Action.ofExcept_apply, Action.read_apply]
  cases hid : item event.payload "tenant_id" with
  | error e => rfl
  | ok tenantId =>
    obtain ⟨user, rfl⟩ := htenant tenantId hid
    cases item event.payload "erp_platform" with
    | error e => rfl
    | ok platform =>
      have hvend := Vault.vendToken_sim hsim h user platform env.defaultTtl env.now
      have hself : (w.withSelf t).self = t := rfl
      simp only [hself, ← hvend]
      cases Vault.vendToken st (.str user) platform env.defaultTtl env.now w.self with
      | ok token => exact BaseAgent.emit_withSelf ..
      | error e =>
        cases e with
        | unsupportedPlatform text => exact BaseAgent.emit_withSelf ..
        | credentialNotFound text => exact BaseAgent.emit_withSelf ..
        | raised e => rfl

end VaultAgent

namespace VaultOp

variable {σ τ : Type} {st : CredentialStore σ} {st' : CredentialStore τ} {R : σ → τ → Prop} (rt : Runtime)

/-- The worlds differ in the attributes alone, which are related. -/
def Alike (R : σ → τ → Prop) (w : VaultAgent.World σ) (v : VaultAgent.World τ) : Prop :=
  ∃ t, v = w.withSelf t ∧ R w.self t

theorem perform_sim (hsim : st.Simulates st' R) (env : VaultAgent.Env) {op : VaultOp} (htyped : op.Typed)
    {w : VaultAgent.World σ} {v : VaultAgent.World τ} (h : Alike R w v) :
    (perform rt st env op w).1 = (perform rt st' env op v).1 ∧
      Alike R (perform rt st env op w).2 (perform rt st' env op v).2 := by
  obtain ⟨t, rfl, h⟩ := h
  cases op with
  | storeCredentials tenantId erpPlatform creds =>
    obtain ⟨⟨user, rfl⟩, hcreds⟩ := htyped
    obtain ⟨hanswer, hstate⟩ := Vault.storeCredentials_sim hsim h user erpPlatform hcreds
    exact ⟨congrArg VaultResponse.done hanswer, _, rfl, hstate⟩
  | rotateToken tenantId erpPlatform tokenId tokenSecret =>
    obtain ⟨⟨user, rfl⟩, hid, hsecret⟩ := htyped
    obtain ⟨hanswer, hstate⟩ := Vault.rotateToken_sim hsim h user erpPlatform hid hsecret
    exact ⟨congrArg VaultResponse.done hanswer, _, rfl, hstate⟩
  | revoke tenantId erpPlatform =>
    obtain ⟨user, rfl⟩ := htyped
    obtain ⟨hanswer, hstate⟩ := Vault.revoke_sim hsim h user erpPlatform
    exact ⟨congrArg VaultResponse.done hanswer, _, rfl, hstate⟩
  | vend body =>
    refine ⟨congrArg VaultResponse.replied ?_, t, rfl, h⟩
    unfold VaultService.vend
    by_cases hbody : (VaultService.isNonemptyStr (body.get "tenant_id") &&
        VaultService.isNonemptyStr (body.get "erp_platform")) = true
    · obtain ⟨user, hid, -⟩ := isNonemptyStr_iff.mp (Bool.and_eq_true_iff.mp hbody).1
      rw [if_pos hbody, if_pos hbody, hid]
      have hvend := Vault.vendToken_sim hsim h user (body.get "erp_platform") env.defaultTtl env.now
      unfold VaultService.vendFor
      rw [hvend]
      rfl
    · rw [if_neg hbody, if_neg hbody]
  | request event =>
    have hhandle := VaultAgent.handle_sim rt hsim env h htyped
    refine ⟨?_, t, ?_, ?_⟩
    · simp only [perform, hhandle]
      rfl
    · simp only [perform, hhandle]
    · show R (VaultAgent.handle rt st env event w).2.self t
      rw [handle_self]
      exact h
  | vendToken tenantId erpPlatform scopes ttl =>
    obtain ⟨user, rfl⟩ := htyped
    have hvend := Vault.vendToken_sim hsim h user erpPlatform (ttl.getD env.defaultTtl) env.now
    refine ⟨?_, t, rfl, h⟩
    simp only [perform, hvend]
    rfl

/-- Over a store that simulates another a Vault answers every run alike. -/
theorem answers_sim (hsim : st.Simulates st' R) {calls : List (VaultAgent.Env × VaultOp)}
    (htyped : ∀ c ∈ calls, c.2.Typed) {w : VaultAgent.World σ} {v : VaultAgent.World τ} (h : Alike R w v) :
    answers rt st w calls = answers rt st' v calls ∧
      Alike R (performed rt st w calls) (performed rt st' v calls) := by
  induction calls generalizing w v with
  | nil => exact ⟨rfl, h⟩
  | cons c calls ih =>
    obtain ⟨hanswer, hnext⟩ := perform_sim rt hsim c.1 (htyped c List.mem_cons_self) h
    obtain ⟨hanswers, hlast⟩ := ih (fun c hc => htyped c (List.mem_cons_of_mem _ hc)) hnext
    refine ⟨?_, hlast⟩
    unfold answers at hanswers ⊢
    rw [Unwinding.outputs_cons, Unwinding.outputs_cons, hanswer, hanswers]

end VaultOp

/-! ## The keyring -/

namespace KeyringCredentialStore

theorem serviceName_inj {ns service service' : String} :
    serviceName ns service = serviceName ns service' ↔ service = service' := by
  refine ⟨fun h => ?_, fun h => by rw [h]⟩
  have htext := congrArg String.toList h
  simp only [serviceName, String.toList_append, List.append_assoc, List.append_cancel_left_eq] at htext
  exact String.toList_inj.mp htext

section Mirrors

variable {κ : Type} {kr : Keyring κ} {ns : String} {first k : κ} {data : InMemoryCredentialStore}

/-- The keyring holds the entries of the dictionary as JSON, and for other services what it held at first. -/
structure Mirrors (kr : Keyring κ) (ns : String) (first : κ) (data : InMemoryCredentialStore) (k : κ) :
    Prop where
  texts : ∀ service user, kr.getPassword (serviceName ns service) (.str user) k =
    .ok ((data (service, .str user)).map fun secret => dumps .default (.obj secret))
  exact : ∀ service user secret, data (service, .str user) = some secret → (Json.obj secret).exact = true
  others : ∀ name user, (∀ service, name ≠ serviceName ns service) →
    kr.getPassword name (.str user) k = kr.getPassword name (.str user) first

/-- A secret without floats is read as it was written. -/
theorem secretOf_dumps {secret : Obj} (h : (Json.obj secret).exact = true) :
    secretOf (some (dumps .default (.obj secret))) = .ok (some secret) := by
  have hread : loads (dumps .default (.obj secret)) = some (.obj secret) := by
    rw [loads_dumps, Json.reread_of_exact h]
  have hne : dumps .default (.obj secret) ≠ "" := by
    intro hempty
    rw [hempty] at hread
    cases hread
  rw [secretOf, if_neg hne, hread]

theorem Mirrors.get (h : Mirrors kr ns first data k) (service user : String) :
    (store kr ns).get service (.str user) k = .ok (data (service, .str user)) := by
  show (kr.getPassword (serviceName ns service) (.str user) k).bind secretOf = _
  rw [h.texts]
  cases hdata : data (service, .str user) with
  | none => rfl
  | some secret => exact secretOf_dumps (h.exact service user secret hdata)

/-- What is written under a service and a user in both; the other passwords of the keyring stay. -/
theorem Mirrors.update (h : Mirrors kr ns first data k) {service user : String} {entry : Option Obj} {k' : κ}
    (hentry : ∀ secret, entry = some secret → (Json.obj secret).exact = true)
    (hwritten : kr.getPassword (serviceName ns service) (.str user) k' =
      .ok (entry.map fun secret => dumps .default (.obj secret)))
    (hframe : ∀ name user', (name, user') ≠ (serviceName ns service, user) →
      kr.getPassword name (.str user') k' = kr.getPassword name (.str user') k) :
    Mirrors kr ns first (Function.update data (service, .str user) entry) k' := by
  have hkey : ∀ service' user', (serviceName ns service', user') = (serviceName ns service, user) ↔
      ((service', .str user') : String × Json) = (service, .str user) := by
    intro service' user'
    simp only [Prod.mk.injEq, serviceName_inj, Json.str.injEq]
  refine ⟨fun service' user' => ?_, fun service' user' secret hsecret => ?_, fun name user' hname => ?_⟩
  · rw [Function.update_apply]
    by_cases hsame : ((service', .str user') : String × Json) = (service, .str user)
    · obtain ⟨hservice, huser⟩ := Prod.mk.inj ((hkey service' user').mpr hsame)
      rw [if_pos hsame, hservice, huser]
      exact hwritten
    · rw [if_neg hsame, hframe _ _ fun hk => hsame ((hkey service' user').mp hk)]
      exact h.texts service' user'
  · rw [Function.update_apply] at hsecret
    by_cases hsame : ((service', .str user') : String × Json) = (service, .str user)
    · rw [if_pos hsame] at hsecret
      exact hentry secret hsecret
    · rw [if_neg hsame] at hsecret
      exact h.exact service' user' secret hsecret
  · have hne : (name, user') ≠ (serviceName ns service, user) := fun heq => hname service (Prod.mk.inj heq).1
    rw [hframe _ _ hne]
    exact h.others name user' hname

/-- A keyring that works simulates the dictionary. -/
theorem simulates (hkr : kr.Lawful) (ns : String) (first : κ) :
    CredentialStore.Simulates InMemoryCredentialStore.store (store kr ns) (Mirrors kr ns first) := by
  refine ⟨?_, ?_, ?_, ?_⟩
  · intro data k h service user
    exact (h.get service user).symm
  · intro data k h service user creds hget
    rw [h.get service user] at hget
    exact h.exact service user creds (Except.ok.inj hget)
  · intro data k h service user secret hexact
    refine ⟨(hkr.set_ok ..).symm, h.update (fun _ hsecret => ?_) (hkr.get_set ..) fun name user' hne => ?_⟩
    · rw [← Option.some.inj hsecret]
      exact hexact
    · exact hkr.get_set_frame _ _ _ _ _ _ hne
  · intro data k h service user
    have hquiet : ((store kr ns).delete service (.str user) k).1 = .ok () := by
      show quietly (kr.deletePassword (serviceName ns service) (.str user) k).1 = .ok ()
      rcases hkr.delete_ok (serviceName ns service) user k with hok | ⟨text, hmissing⟩
      · rw [hok]
        rfl
      · rw [hmissing]
        rfl
    refine ⟨hquiet.symm, h.update (fun _ hnone => ?_) (hkr.get_delete ..) fun name user' hne => ?_⟩
    · cases hnone
    · exact hkr.get_delete_frame _ _ _ _ _ hne

/-- An empty dictionary is mirrored by a keyring without passwords of the namespace. -/
theorem mirrors_empty (hunused : Unused kr ns first) : Mirrors kr ns first (fun _ => none) first := by
  refine ⟨hunused, ?_, fun _ _ _ => rfl⟩
  intro service user secret h
  cases h

end Mirrors

end KeyringCredentialStore

namespace VaultOp

open KeyringCredentialStore (serviceName)

theorem onboarding_typed (consumerSecret tokenSecret newSecret : String) :
    ∀ c ∈ onboarding consumerSecret tokenSecret newSecret, c.2.Typed := by
  intro c hc
  rcases List.mem_cons.mp hc with rfl | hc
  · exact ⟨⟨"acme", rfl⟩, rfl⟩
  · rcases List.mem_cons.mp hc with rfl | hc
    · exact ⟨⟨"acme", rfl⟩, rfl, rfl⟩
    · rw [List.mem_singleton.mp hc]
      trivial

/-- **The keyring refines the dictionary.** Over a keyring that works and has no passwords of the namespace yet,
every run whose tenants are texts, and whose secrets have no floats, is answered as over the empty dictionary of
the tests, tokens and their signers included, and the passwords of other programs stay as they are. -/
theorem keyring_refines (rt : Runtime) {κ : Type} {kr : Keyring κ} (hkr : kr.Lawful) {ns : String} {first : κ}
    (hunused : KeyringCredentialStore.Unused kr ns first)
    {calls : List (VaultAgent.Env × VaultOp)} (htyped : ∀ c ∈ calls, c.2.Typed) :
    answers rt (KeyringCredentialStore.store kr ns) { self := first } calls =
        answers rt InMemoryCredentialStore.store { self := fun _ => none } calls ∧
      ∀ name user, (∀ service, name ≠ serviceName ns service) →
        kr.getPassword name (.str user)
            (performed rt (KeyringCredentialStore.store kr ns) { self := first } calls).self =
          kr.getPassword name (.str user) first := by
  have hstart : Alike (KeyringCredentialStore.Mirrors kr ns first)
      ({ self := fun _ => none } : VaultAgent.World InMemoryCredentialStore)
      ({ self := first } : VaultAgent.World κ) :=
    ⟨first, rfl, KeyringCredentialStore.mirrors_empty hunused⟩
  obtain ⟨hanswers, t, hworld, hmirrors⟩ :=
    answers_sim rt (KeyringCredentialStore.simulates hkr ns first) htyped hstart
  refine ⟨hanswers.symm, fun name user hname => ?_⟩
  rw [hworld]
  exact hmirrors.others name user hname

/-- A keyring of passwords by service and user name. A user name that is no text is refused, as is the deletion
of a password that is not there. -/
def passwords : Keyring (String × String → Option String) where
  getPassword service username k :=
    match username with
    | .str user => .ok (k (service, user))
    | _ => .error (.typeError "the user name is no str")
  setPassword service username password k :=
    match username with
    | .str user => (.ok (), Function.update k (service, user) (some password))
    | _ => (.error (.typeError "the user name is no str"), k)
  deletePassword service username k :=
    match username with
    | .str user =>
      match k (service, user) with
      | some _ => (.ok (), Function.update k (service, user) none)
      | none => (.error (.passwordDeleteError "Password not found"), k)
    | _ => (.error (.raised (.typeError "the user name is no str")), k)

theorem passwords_lawful : passwords.Lawful := by
  constructor
  · exact fun service user k => ⟨_, rfl⟩
  · exact fun _ _ _ _ => rfl
  · intro service user password k
    exact congrArg Except.ok (Function.update_self ..)
  · intro service user password k service' user' hne
    exact congrArg Except.ok (Function.update_of_ne hne ..)
  · intro service user k
    unfold passwords
    cases hk : k (service, user) with
    | none => exact .inr ⟨"Password not found", by simp only [hk]⟩
    | some password => exact .inl (by simp only [hk])
  · intro service user k
    unfold passwords
    cases hk : k (service, user) with
    | none => simp only [hk]
    | some password => simp only [hk, Function.update_self]
  · intro service user k service' user' hne
    unfold passwords
    cases hk : k (service, user) with
    | none => simp only [hk]
    | some password => simp only [hk, Function.update_of_ne hne]

theorem keyring_refines_onboarding :
    answers (.repository "schema_registry/schemas" (fun _ _ => "") id)
        (KeyringCredentialStore.store passwords "cavi-vault") { self := fun _ => none }
        (onboarding "cs-1" "ts-1" "ts-2") =
      answers (.repository "schema_registry/schemas" (fun _ _ => "") id) InMemoryCredentialStore.store
        { self := fun _ => none } (onboarding "cs-1" "ts-1" "ts-2") :=
  (keyring_refines _ passwords_lawful (fun _ _ => rfl) (onboarding_typed _ _ _)).1

end VaultOp

end CaviErp

import CaviErp.Base.Proofs.EnvelopeProofs
import CaviErp.Vault.Http
import CaviErp.Vault.Proofs.OAuthProofs
import CaviErp.Vault.Proofs.ServiceProofs

/-!
# Which requests the endpoint answers

A request that is refused for its secret is answered whatever its body is. Of the others, those are answered
whose body is no JSON text, or an object in which the tenant can be looked up in the list and of which what is
to be signed can be encoded.
-/

namespace CaviErp

open Py

/-! ## Tokens -/

namespace Vault

theorem item_of_mem {creds : Obj} {k : String} (h : k ∈ creds.keys) :
    ∃ v, item (.obj creds) k = .ok v := by
  obtain ⟨v, hv⟩ := Dict.exists_lookup_iff.mpr h
  exact ⟨v, item_of_get? hv⟩

/-- A string is the name of a platform, or of none that is supported. -/
theorem normalizePlatform_str (s : String) :
    (∃ platform, Name.normalizePlatform (Json.str s) = .ok platform) ∨
      ∃ text, Name.normalizePlatform (Json.str s) = .error (.unsupportedPlatform text) := by
  rw [Name.normalizePlatform_json]
  unfold normalizePlatform
  dsimp only
  split
  · exact .inl ⟨_, rfl⟩
  · exact .inr ⟨_, rfl⟩

theorem normalizeText_cases (t : Text) :
    (∃ platform, Name.normalizePlatform t = .ok platform) ∨
      ∃ text, Name.normalizePlatform t = .error (.unsupportedPlatform text) := by
  rw [Name.normalizePlatform_text]
  unfold normalizeText
  cases t.string? with
  | none => exact .inr ⟨_, rfl⟩
  | some s => exact normalizePlatform_str s

variable {τ ι σ : Type} [Name τ] {named : ι → τ} {store : StoreOf τ σ} {s : σ}

/-- What the store holds for the tenant decides what is vended. -/
theorem vendToken_cases (hstore : VaultHandler.SoundStore named store s) (tenantId : ι) {erpPlatform : τ}
    (hplatform : (∃ platform, Name.normalizePlatform erpPlatform = .ok platform) ∨
      ∃ text, Name.normalizePlatform erpPlatform = .error (.unsupportedPlatform text)) (ttl now : ℚ) :
    ((∀ platform, Name.normalizePlatform erpPlatform ≠ .ok platform) ∧
        ∃ text, vendToken store (named tenantId) erpPlatform ttl now s =
          .error (.unsupportedPlatform text)) ∨
      ∃ platform, Name.normalizePlatform erpPlatform = .ok platform ∧
        ((store.get platform (named tenantId) s = .ok none ∧
            ∃ text, vendToken store (named tenantId) erpPlatform ttl now s =
              .error (.credentialNotFound text)) ∨
          ∃ creds token, store.get platform (named tenantId) s = .ok (some creds) ∧
            vendToken store (named tenantId) erpPlatform ttl now s = .ok token ∧
            token.signer = creds ∧ token.expiresAt = Binary64.add now ttl ∧
            ∀ f ∈ requiredFields platform, f ∈ creds.keys) := by
  unfold vendToken
  obtain ⟨platform, hok⟩ | ⟨text, herror⟩ := hplatform
  · rw [hok]
    refine .inr ⟨platform, rfl, ?_⟩
    obtain ⟨entry, hentry⟩ := hstore.answers platform tenantId
    unfold credentials
    cases entry with
    | none =>
      refine .inl ⟨hentry, "no " ++ platform ++ " credentials stored for tenant " ++
        String.ofList (Name.repr (named tenantId)), ?_⟩
      simp only [hentry, bind, Except.bind]
    | some creds =>
      have hcomplete := hstore.complete platform tenantId creds hentry
      have hfield : ∀ f ∈ requiredFields platform, ∃ v, field creds f = .ok v := by
        intro f hf
        obtain ⟨v, hv⟩ := item_of_mem (hcomplete f hf)
        exact ⟨v, by rw [field, hv]; rfl⟩
      obtain ⟨accountId, haccount⟩ := hfield "account_id" (by simp [requiredFields])
      obtain ⟨consumerKey, hkey⟩ := hfield "consumer_key" (by simp [requiredFields])
      obtain ⟨tokenId, htoken⟩ := hfield "token_id" (by simp [requiredFields])
      simp only [hentry, bind, Except.bind, haccount, hkey, htoken]
      exact .inr ⟨creds, _, rfl, rfl, rfl, rfl, hcomplete⟩
  · rw [herror]
    exact .inl ⟨nofun, text, rfl⟩

end Vault

/-! ## Signing -/

/-- Credentials that are complete sign every request whose parameters, if there are any, are an object. -/
theorem OAuth1a.authorizationHeader_ok (platform : Platform) {creds : Obj} {erp : String}
    (hcomplete : ∀ f ∈ Vault.requiredFields erp, f ∈ creds.keys) (method url : String) {params : Json}
    (hparams : params = .null ∨ ∃ q, params = .obj q) (nonce timestamp : String) :
    ∃ header, authorizationHeader platform creds method url params nonce timestamp = .ok header := by
  obtain ⟨accountId, haccount⟩ := Vault.item_of_mem (hcomplete "account_id" (by simp [Vault.requiredFields]))
  obtain ⟨consumerKey, hkey⟩ := Vault.item_of_mem (hcomplete "consumer_key" (by simp [Vault.requiredFields]))
  obtain ⟨tokenId, htoken⟩ := Vault.item_of_mem (hcomplete "token_id" (by simp [Vault.requiredFields]))
  obtain ⟨secret, hsecret⟩ := Vault.item_of_mem (hcomplete "consumer_secret" (by simp [Vault.requiredFields]))
  obtain ⟨tokenSecret, htokenSecret⟩ :=
    Vault.item_of_mem (hcomplete "token_secret" (by simp [Vault.requiredFields]))
  unfold authorizationHeader baseString normalizedParams oauthParams
  simp only [haccount, hkey, htoken, hsecret, htokenSecret, bind, Except.bind, pure, Except.pure]
  unfold signedParams
  obtain rfl | ⟨q, rfl⟩ := hparams
  · exact ⟨_, rfl⟩
  · by_cases htruthy : (Json.obj q).truthy = true
    · simp only [if_pos htruthy]
      exact ⟨_, rfl⟩
    · simp only [if_neg htruthy]
      exact ⟨_, rfl⟩

theorem isNonemptyStr_iff {v : Json} :
    VaultService.isNonemptyStr v = true ↔ ∃ t : String, v = .str t ∧ t ≠ "" := by
  cases v with
  | str t => simp [VaultService.isNonemptyStr]
  | _ => simp [VaultService.isNonemptyStr]

namespace VaultHandler

/-- A loop over a list returns where each step does. -/
theorem mapM_ok_iff {α β ε : Type} {f : α → Except ε β} {xs : List α} :
    (∃ ys, xs.mapM f = .ok ys) ↔ ∀ x ∈ xs, ∃ y, f x = .ok y := by
  induction xs with
  | nil => exact iff_of_true ⟨[], rfl⟩ nofun
  | cons x xs ih =>
    rw [List.mapM_cons, List.forall_mem_cons, ← ih]
    constructor
    · rintro ⟨ys, h⟩
      obtain ⟨y, hy, h⟩ := bind_eq_ok h
      obtain ⟨ys', hys, -⟩ := bind_eq_ok h
      exact ⟨⟨y, hy⟩, ys', hys⟩
    · rintro ⟨⟨y, hy⟩, ys, hys⟩
      exact ⟨y :: ys, by rw [hy, hys]; rfl⟩

variable {py : Interpreter}

theorem encodedParam_ok_iff {kv : Text × Wide} :
    (∃ item, VaultService.encodedParam py.strLimit kv = .ok item) ↔ Encodable kv.1 ∧ Printable py.strLimit kv.2 := by
  rw [← encoded_ok_iff, ← printable_iff]
  unfold VaultService.encodedParam
  constructor
  · rintro ⟨item, h⟩
    obtain ⟨name, hname, h⟩ := bind_eq_ok h
    obtain ⟨t, ht, h⟩ := bind_eq_ok h
    obtain ⟨s, hs, -⟩ := bind_eq_ok h
    exact ⟨⟨name, hname⟩, t, s, ht, hs⟩
  · rintro ⟨⟨name, hname⟩, t, s, ht, hs⟩
    refine ⟨(name, .str s), ?_⟩
    rw [hname]
    show (strOf py.strLimit kv.2 >>= fun text => _) = _
    rw [ht]
    show (encoded t >>= fun value => _) = _
    rw [hs]
    rfl

theorem encodedParams_shape {params : Wide} {encoded : Json}
    (h : VaultService.encodedParams py.strLimit params = .ok encoded) :
    encoded = .null ∨ ∃ q, encoded = .obj q := by
  unfold VaultService.encodedParams at h
  split at h
  · split at h
    · obtain ⟨items, -, hitems⟩ := bind_eq_ok h
      obtain rfl := Except.ok.inj hitems
      exact .inr ⟨items, rfl⟩
    · cases h
  · exact .inl (Except.ok.inj h).symm

theorem encodedParams_ok_iff {params : Wide} :
    (∃ encoded, VaultService.encodedParams py.strLimit params = .ok encoded) ↔
      (params.truthy = true → ∃ q, params = .obj q ∧
        ∀ kv ∈ q, VaultService.isReplaced kv = false → Encodable kv.1 ∧ Printable py.strLimit kv.2) := by
  unfold VaultService.encodedParams
  by_cases htruthy : params.truthy = true
  · rw [if_pos htruthy, forall_prop_of_true htruthy]
    cases params with
    | obj q =>
      have hmap : (∃ encoded, (do
            let items ← (q.filter fun kv => !VaultService.isReplaced kv).mapM
              (VaultService.encodedParam py.strLimit)
            return Json.obj items) = Except.ok encoded) ↔
          ∃ items, (q.filter fun kv => !VaultService.isReplaced kv).mapM
            (VaultService.encodedParam py.strLimit) = .ok items := by
        constructor
        · rintro ⟨encoded, h⟩
          obtain ⟨items, hitems, -⟩ := bind_eq_ok h
          exact ⟨items, hitems⟩
        · rintro ⟨items, h⟩
          exact ⟨.obj items, by rw [h]; rfl⟩
      refine hmap.trans (mapM_ok_iff.trans ?_)
      constructor
      · intro h
        refine ⟨q, rfl, fun kv hkv hkept => encodedParam_ok_iff.mp (h kv ?_)⟩
        exact List.mem_filter.mpr ⟨hkv, by rw [hkept]; rfl⟩
      · rintro ⟨q', heq, h⟩ kv hkv
        obtain rfl := Wide.obj.inj heq
        obtain ⟨hmem, hkept⟩ := List.mem_filter.mp hkv
        exact encodedParam_ok_iff.mpr (h kv hmem (by simpa using hkept))
    | _ =>
      refine iff_of_false ?_ ?_
      · rintro ⟨encoded, h⟩
        cases h
      · rintro ⟨q, h, -⟩
        cases h
  · rw [if_neg htruthy]
    exact iff_of_true ⟨.null, rfl⟩ fun h => absurd h htruthy

/-- A token signs what can be encoded. -/
theorem tokenHeader_ok_iff (py : Interpreter) (env : SignEnv) {token : TokenOf Text} {erp : String}
    (hcomplete : ∀ f ∈ Vault.requiredFields erp, f ∈ token.signer.keys) (method url : Text) (params : Wide) :
    (∃ header, VaultService.tokenHeader py.platform py.strLimit env token method url params = .ok header) ↔
      Encodable method ∧ Encodable url ∧ (params.truthy = true → ∃ q, params = .obj q ∧
        ∀ kv ∈ q, VaultService.isReplaced kv = false → Encodable kv.1 ∧ Printable py.strLimit kv.2) := by
  rw [← encoded_ok_iff, ← encoded_ok_iff, ← encodedParams_ok_iff]
  unfold VaultService.tokenHeader
  constructor
  · rintro ⟨header, h⟩
    obtain ⟨encoded, hencoded, h⟩ := bind_eq_ok h
    obtain ⟨u, hu, h⟩ := bind_eq_ok h
    obtain ⟨m, hm, -⟩ := bind_eq_ok h
    exact ⟨⟨m, hm⟩, ⟨u, hu⟩, encoded, hencoded⟩
  · rintro ⟨⟨m, hm⟩, ⟨u, hu⟩, encoded, hencoded⟩
    obtain ⟨header, hheader⟩ := OAuth1a.authorizationHeader_ok py.platform hcomplete m u
      (encodedParams_shape hencoded) env.nonce (toString env.signedAt.floor)
    refine ⟨header, ?_⟩
    simp only [hencoded, hu, hm, bind, Except.bind]
    exact hheader

/-! ## The service -/

theorem textField_eq_some_iff {body : WideObj} {f : String} {t : Text} :
    VaultService.textField body f = some t ↔ body.get f = .str t ∧ t ≠ [] := by
  unfold VaultService.textField
  split
  · rename_i u hu
    rw [hu, Wide.str.injEq]
    split
    · rename_i hnil
      exact iff_of_false nofun fun h => h.2 (h.1 ▸ hnil)
    · rename_i hne
      constructor
      · intro h
        obtain rfl := Option.some.inj h
        exact ⟨rfl, hne⟩
      · exact fun h => congrArg some h.1
  · rename_i hne
    exact iff_of_false nofun fun h => hne t h.1

section Service

variable {σ : Type} {store : StoreOf Text σ} {s : σ}

theorem vend_replies (hstore : SoundStore id store s) (body : WideObj) (ttl now : ℚ) :
    ∃ reply, VaultService.vendText store body ttl now s = .ok reply ∧ reply.status ∈ statuses := by
  unfold VaultService.vendText
  split
  · rename_i tenantId erpPlatform _ _
    unfold VaultService.vendFor
    rcases Vault.vendToken_cases hstore tenantId (Vault.normalizeText_cases erpPlatform) ttl now with
      ⟨-, text, h⟩ | ⟨platform, -, ⟨-, text, h⟩ | ⟨creds, token, -, h, -⟩⟩ <;> rw [id_eq] at h <;> rw [h]
    · exact ⟨_, rfl, by simp [statuses]⟩
    · exact ⟨_, rfl, by simp [statuses]⟩
    · exact ⟨_, rfl, by simp [statuses]⟩
  · exact ⟨_, rfl, by simp [statuses]⟩

/-- A request to sign fails only where it gets as far as the signature, of what cannot be encoded. -/
theorem sign_replies_iff (py : Interpreter) (hstore : SoundStore id store s) (cfg : Config) (env : SignEnv) (body : WideObj)
    (hpermitted : cfg.tenantAllowlist = [] ∨ ∃ name ∈ cfg.tenantAllowlist, body.get "tenant_id" = .str name) :
    (∃ reply, VaultService.sign py.platform py.strLimit store env body s = .ok reply ∧
        reply.status ∈ statuses) ↔
      (Signs cfg store env s body → Signable py body) := by
  unfold VaultService.sign
  split
  · rename_i tenantId erpPlatform method url htenant hplatform hmethod hurl
    obtain ⟨ht, htne⟩ := textField_eq_some_iff.mp htenant
    obtain ⟨hp, hpne⟩ := textField_eq_some_iff.mp hplatform
    obtain ⟨hm, hmne⟩ := textField_eq_some_iff.mp hmethod
    obtain ⟨hu, hune⟩ := textField_eq_some_iff.mp hurl
    rcases Vault.vendToken_cases hstore tenantId (Vault.normalizeText_cases erpPlatform) env.ttl env.now with
      ⟨hunknown, text, h⟩ | ⟨platform, hknown, ⟨hnone, text, h⟩ | ⟨creds, token, hsome, h, hsigner, hexpires,
        hcomplete⟩⟩
    · rw [id_eq] at h
      rw [h]
      refine iff_of_true ⟨_, rfl, by simp [statuses]⟩ fun hsigns => ?_
      obtain ⟨t, p, platform, creds, -, hp', hknown, -⟩ := hsigns.stored
      obtain rfl := Wide.str.inj (hp.symm.trans hp')
      exact absurd hknown (hunknown platform)
    · rw [id_eq] at h
      rw [h]
      refine iff_of_true ⟨_, rfl, by simp [statuses]⟩ fun hsigns => ?_
      obtain ⟨t, p, platform', creds, ht', hp', hknown', hsome⟩ := hsigns.stored
      obtain rfl := Wide.str.inj (ht.symm.trans ht')
      obtain rfl := Wide.str.inj (hp.symm.trans hp')
      obtain rfl := Except.ok.inj (hknown.symm.trans hknown')
      rw [id_eq, hsome] at hnone
      cases hnone
    · rw [id_eq] at h
      rw [h]
      dsimp only
      by_cases hold : token.expiresAt ≤ env.later
      · rw [if_pos hold]
        refine iff_of_true ⟨_, rfl, by simp [statuses]⟩ fun hsigns => ?_
        rw [hexpires] at hold
        exact absurd hsigns.fresh (not_lt.mpr hold)
      · have hsigns : Signs cfg store env s body := by
          refine ⟨hpermitted, fun f hf => ?_, ⟨tenantId, erpPlatform, platform, creds, ht, hp, hknown, hsome⟩, ?_⟩
          · rcases List.mem_cons.mp hf with rfl | hf
            · exact ⟨tenantId, ht, htne⟩
            rcases List.mem_cons.mp hf with rfl | hf
            · exact ⟨erpPlatform, hp, hpne⟩
            rcases List.mem_cons.mp hf with rfl | hf
            · exact ⟨method, hm, hmne⟩
            · exact ⟨url, List.mem_singleton.mp hf ▸ hu, hune⟩
          · rw [hexpires] at hold
            exact not_le.mp hold
        rw [if_neg hold]
        have hheader := tokenHeader_ok_iff py env (hsigner.symm ▸ hcomplete) method url (body.get "params")
        constructor
        · rintro ⟨reply, hreply, -⟩ _
          obtain ⟨header, hok, -⟩ := bind_eq_ok hreply
          obtain ⟨hmethod, hurl, hparams⟩ := hheader.mp ⟨header, hok⟩
          refine ⟨fun t ht => ?_, fun t ht => ?_, hparams⟩
          · exact Wide.str.inj (hm.symm.trans ht) ▸ hmethod
          · exact Wide.str.inj (hu.symm.trans ht) ▸ hurl
        · intro hsignable
          obtain ⟨hmethod, hurl, hparams⟩ := hsignable hsigns
          obtain ⟨header, hok⟩ := hheader.mpr ⟨hmethod method hm, hurl url hu, hparams⟩
          refine ⟨⟨200, [("authorization_header", .str header),
            ("expires_at", .float (.finite token.expiresAt))]⟩, ?_, by simp [statuses]⟩
          rw [hok]
          rfl
  · rename_i hmissing
    refine iff_of_true ⟨_, rfl, by simp [statuses]⟩ fun hsigns => ?_
    obtain ⟨t, ht⟩ := hsigns.fields "tenant_id" (by simp)
    obtain ⟨p, hp⟩ := hsigns.fields "erp_platform" (by simp)
    obtain ⟨m, hm⟩ := hsigns.fields "method" (by simp)
    obtain ⟨u, hu⟩ := hsigns.fields "url" (by simp)
    exact absurd (textField_eq_some_iff.mpr hu) (hmissing t p m u (textField_eq_some_iff.mpr ht)
      (textField_eq_some_iff.mpr hp) (textField_eq_some_iff.mpr hm))

end Service

/-! ## The handler -/

theorem verifySharedSecret_iff (provided : Option String) (expected : String) :
    verifySharedSecret provided expected = true ↔ expected ≠ "" ∧ provided = some expected := by
  cases provided with
  | none => simp [verifySharedSecret]
  | some p =>
    unfold verifySharedSecret
    simp only [Bool.and_eq_true, decide_eq_true_eq, Option.some.injEq]
    constructor
    · rintro ⟨⟨hexpected, -⟩, hbytes⟩
      exact ⟨hexpected, String.toByteArray_inj.mp hbytes⟩
    · rintro ⟨hexpected, rfl⟩
      exact ⟨⟨hexpected, hexpected⟩, rfl⟩

theorem isListed_iff {cfg : Config} {v : Wide} :
    isListed cfg v = true ↔ ∃ name ∈ cfg.tenantAllowlist, v = .str (Text.ofString name) := by
  unfold isListed
  split
  · rw [List.any_eq_true]
    refine exists_congr fun name => and_congr_right fun _ => ?_
    rw [decide_eq_true_eq, Wide.str.injEq, eq_comm]
  · rename_i hne
    refine iff_of_false nofun ?_
    rintro ⟨name, -, rfl⟩
    exact hne _ rfl

/-- A tenant can be looked up in the list if it is hashable. -/
theorem permitted_cases (cfg : Config) (v : Wide) :
    (∃ b, permitted cfg v = .ok b ∧ (cfg.tenantAllowlist = [] ∨ v.hashable = true) ∧
        (b = true ↔ cfg.tenantAllowlist = [] ∨ ∃ name ∈ cfg.tenantAllowlist, v = .str (Text.ofString name))) ∨
      (∃ e, permitted cfg v = .error e) ∧ cfg.tenantAllowlist ≠ [] ∧ v.hashable = false := by
  unfold permitted
  by_cases hlist : cfg.tenantAllowlist = []
  · rw [if_pos hlist]
    exact .inl ⟨true, rfl, .inl hlist, iff_of_true rfl (.inl hlist)⟩
  · rw [if_neg hlist]
    by_cases hhash : v.hashable = true
    · rw [if_pos hhash]
      refine .inl ⟨_, rfl, .inr hhash, ?_⟩
      rw [or_iff_right hlist, isListed_iff]
    · rw [if_neg hhash]
      exact .inr ⟨⟨_, rfl⟩, hlist, Bool.eq_false_of_not_eq_true hhash⟩

theorem answers_send (status : Nat) (payload : List (String × Wide)) (h : status ∈ statuses)
    {before : List Obs} (hbefore : ∀ obs ∈ before, ∀ other, obs ≠ .sent other) :
    Answers (send status payload before) :=
  ⟨rfl, ⟨status, payload⟩, before, rfl, hbefore, h⟩

theorem not_answers_error {e : Uncaught} {seen : List Obs} : ¬ Answers (.error e, seen) := fun h => nomatch h.1

variable {σ : Type} {store : StoreOf Text σ} {s : σ} {cfg : Config} {env : SignEnv} {post : Post}
  {body : WideObj}

theorem tenant_of_vendCall {path : String} {call : Text × Text} (h : vendCall path body = some call) :
    body.get "tenant_id" = .str call.1 := by
  unfold vendCall at h
  obtain ⟨tenantId, htenant, h⟩ := Option.bind_eq_some_iff.mp h
  obtain ⟨erpPlatform, -, h⟩ := Option.bind_eq_some_iff.mp h
  have hcall : tenantId = call.1 := by
    dsimp only at h
    split at h
    · obtain ⟨-, -, h⟩ := Option.bind_eq_some_iff.mp h
      obtain ⟨-, -, h⟩ := Option.bind_eq_some_iff.mp h
      exact congrArg Prod.fst (Option.some.inj h)
    · exact congrArg Prod.fst (Option.some.inj h)
  exact hcall ▸ (textField_eq_some_iff.mp htenant).1

/-- What the service replies is sent, after the call of `vend_token` if there is one. -/
theorem serve_eq (path : String) :
    ∃ before, (∀ obs ∈ before, ∃ t p, obs = .vendToken t p ∧ body.get "tenant_id" = .str t) ∧
      serve py store env s path body [] =
        match if path = "/vend" then VaultService.vendText store body env.ttl env.now s
          else VaultService.sign py.platform py.strLimit store env body s with
        | .ok reply => send reply.status reply.body before
        | .error e => (.error (.py e), before) := by
  unfold serve
  cases hcall : vendCall path body with
  | some call =>
    refine ⟨[.vendToken call.1 call.2], ?_, ?_⟩
    · intro obs hobs
      exact ⟨_, _, List.mem_singleton.mp hobs, tenant_of_vendCall hcall⟩
    · simp only [Action.bind_apply, Action.modify_apply, Action.ofExcept_apply, List.nil_append]
      generalize (if path = "/vend" then _ else _ : Except PyError (ReplyOf Wide)) = r
      cases r <;> rfl
  | none =>
    refine ⟨[], nofun, ?_⟩
    simp only [Action.bind_apply, Action.ofExcept_apply]
    generalize (if path = "/vend" then _ else _ : Except PyError (ReplyOf Wide)) = r
    cases r <;> rfl

theorem serve_answers_iff (hstore : SoundStore id store s)
    (hpath : post.path = "/vend" ∨ post.path = "/sign")
    (hpermitted : cfg.tenantAllowlist = [] ∨ ∃ name ∈ cfg.tenantAllowlist, body.get "tenant_id" = .str name) :
    Answers (serve py store env s post.path body []) ↔
      (post.path = "/sign" → Signs cfg store env s body → Signable py body) := by
  obtain ⟨before, hbefore, hserve⟩ := @serve_eq py σ store s env body post.path
  have hnone : ∀ obs ∈ before, ∀ other, obs ≠ .sent other := by
    intro obs hobs other heq
    obtain ⟨t, p, rfl, -⟩ := hbefore obs hobs
    cases heq
  rw [hserve]
  rcases hpath with hpath | hpath
  · obtain ⟨reply, hreply, hstatus⟩ := vend_replies hstore body env.ttl env.now
    rw [hpath, if_pos rfl, hreply]
    refine iff_of_true (answers_send _ _ hstatus hnone) fun h => absurd h (by decide)
  · rw [hpath, if_neg (by decide)]
    have hiff := sign_replies_iff py hstore cfg env body hpermitted
    cases hreply : VaultService.sign py.platform py.strLimit store env body s with
    | ok reply =>
      rw [hreply] at hiff
      constructor
      · rintro ⟨-, reply', before', hseen, -, hstatus⟩ _
        refine hiff.mp ⟨reply, rfl, ?_⟩
        have hlast : [Obs.sent ⟨reply.status, reply.body⟩] = [Obs.sent reply'] :=
          List.append_inj_right' hseen rfl
        obtain rfl := Obs.sent.inj (List.singleton_inj.mp hlast)
        exact hstatus
      · intro h
        obtain ⟨reply', heq, hstatus⟩ := hiff.mpr (h rfl)
        obtain rfl := Except.ok.inj heq
        exact answers_send _ _ hstatus hnone
    | error e =>
      refine iff_of_false not_answers_error fun h => ?_
      obtain ⟨reply, hok, -⟩ := hiff.mpr (h rfl)
      rw [hreply] at hok
      cases hok

theorem answerJson_iff (hstore : SoundStore id store s) (hpath : post.path = "/vend" ∨ post.path = "/sign")
    (data : Wide) :
    Answers (answerJson py cfg store env s post.path data []) ↔
      ∃ body : WideObj, data = .obj body ∧ Prepared py cfg store env s post.path body := by
  unfold answerJson
  simp only [Action.bind_apply, Action.ofExcept_apply]
  cases data with
  | obj body =>
    have hobj : (∃ body', Wide.obj body = .obj body' ∧ Prepared py cfg store env s post.path body') ↔
        Prepared py cfg store env s post.path body := by
      constructor
      · rintro ⟨body', heq, h⟩
        exact Wide.obj.inj heq ▸ h
      · exact fun h => ⟨body, rfl, h⟩
    rw [hobj]
    simp only [asDict]
    rcases permitted_cases cfg (WideObj.get body "tenant_id") with ⟨b, hb, htenant, hiff⟩ | ⟨⟨e, he⟩, hlist, hhash⟩
    · rw [hb]
      dsimp only
      by_cases hpermitted : b = true
      · rw [if_pos hpermitted, serve_answers_iff hstore hpath (hiff.mp hpermitted)]
        exact ⟨fun h => ⟨htenant, h⟩, fun h => h.signed⟩
      · rw [if_neg hpermitted]
        refine iff_of_true (answers_send _ _ (by simp [statuses]) nofun) ⟨htenant, ?_⟩
        intro _ hsigns
        exact absurd (hiff.mpr hsigns.permitted) hpermitted
    · rw [he]
      refine iff_of_false not_answers_error fun h => ?_
      rw [h.tenant.resolve_left hlist] at hhash
      cases hhash
  | _ =>
    refine iff_of_false not_answers_error ?_
    rintro ⟨body, h, -⟩
    cases h

/-- Of a caller that is authorized, the handler answers the bodies that it is prepared for. -/
theorem answerBody_iff (hstore : SoundStore id store s) (hpath : post.path = "/vend" ∨ post.path = "/sign") :
    Answers (answerBody py cfg store env s post []) ↔
      ∃ raw, rawBody py post = .ok raw ∧
        (loadsBytes py raw = .ok none ∨
          ∃ body : WideObj, loadsBytes py raw = .ok (some (.obj body)) ∧
            Prepared py cfg store env s post.path body) := by
  unfold answerBody
  simp only [Action.bind_apply, Action.ofExcept_apply]
  cases hraw : rawBody py post with
  | error e =>
    refine iff_of_false not_answers_error ?_
    rintro ⟨raw, h, -⟩
    cases h
  | ok raw =>
    simp only [Except.ok.injEq, exists_eq_left']
    cases hloads : loadsBytes py raw with
    | error e =>
      refine iff_of_false not_answers_error ?_
      rintro (h | ⟨body, h, -⟩)
      · cases h
      · cases h
    | ok parsed =>
      cases parsed with
      | none =>
        have hbefore : ∀ obs ∈ ([] : List Obs), ∀ other, obs ≠ .sent other := by
          intro obs hobs
          cases hobs
        exact iff_of_true (answers_send _ _ (by simp [statuses]) hbefore) (.inl rfl)
      | some data =>
        dsimp only
        rw [answerJson_iff hstore hpath]
        simp

section Calls

variable {tenantId erpPlatform : Text}

theorem not_mem_send (status : Nat) (payload : List (String × Wide)) :
    Obs.vendToken tenantId erpPlatform ∉ (send status payload []).2 := fun h =>
  Obs.noConfusion (List.mem_singleton.mp h)

/-- The service calls `vend_token` for the tenant of the body. -/
theorem tenant_of_serve {path : String}
    (h : Obs.vendToken tenantId erpPlatform ∈ (serve py store env s path body []).2) :
    body.get "tenant_id" = .str tenantId := by
  obtain ⟨before, hbefore, hserve⟩ := @serve_eq py σ store s env body path
  have hseen : (serve py store env s path body []).2 = before ∨
      ∃ reply, (serve py store env s path body []).2 = before ++ [.sent reply] := by
    rw [hserve]
    split
    · exact .inr ⟨_, rfl⟩
    · exact .inl rfl
  have hcalled : Obs.vendToken tenantId erpPlatform ∈ before := by
    rcases hseen with hseen | ⟨reply, hseen⟩
    · exact hseen ▸ h
    · rw [hseen] at h
      refine (List.mem_append.mp h).resolve_right fun hsent => ?_
      cases List.mem_singleton.mp hsent
  obtain ⟨t, p, heq, htenant⟩ := hbefore _ hcalled
  exact (Obs.vendToken.inj heq).1 ▸ htenant

theorem tenant_of_answerJson {path : String} {data : Wide}
    (h : Obs.vendToken tenantId erpPlatform ∈ (answerJson py cfg store env s path data []).2) :
    ∃ body : WideObj, data = .obj body ∧ body.get "tenant_id" = .str tenantId ∧
      (cfg.tenantAllowlist = [] ∨ ∃ name ∈ cfg.tenantAllowlist, tenantId = Text.ofString name) := by
  unfold answerJson at h
  simp only [Action.bind_apply, Action.ofExcept_apply] at h
  cases data with
  | obj body =>
    simp only [asDict] at h
    rcases permitted_cases cfg (WideObj.get body "tenant_id") with ⟨b, hb, -, hiff⟩ | ⟨⟨e, he⟩, -⟩
    · rw [hb] at h
      dsimp only at h
      split at h
      · rename_i hpermitted
        have htenant := tenant_of_serve h
        refine ⟨body, rfl, htenant, (hiff.mp hpermitted).imp_right ?_⟩
        rintro ⟨name, hname, heq⟩
        exact ⟨name, hname, Wide.str.inj (htenant.symm.trans heq)⟩
      · exact absurd h (not_mem_send _ _)
    · rw [he] at h
      cases h
  | _ => cases h

theorem tenant_of_answerBody
    (h : Obs.vendToken tenantId erpPlatform ∈ (answerBody py cfg store env s post []).2) :
    (∃ (raw : List UInt8) (body : WideObj), rawBody py post = .ok raw ∧
        loadsBytes py raw = .ok (some (.obj body)) ∧ body.get "tenant_id" = .str tenantId) ∧
      (cfg.tenantAllowlist = [] ∨ ∃ name ∈ cfg.tenantAllowlist, tenantId = Text.ofString name) := by
  unfold answerBody at h
  simp only [Action.bind_apply, Action.ofExcept_apply] at h
  cases hraw : rawBody py post with
  | error e =>
    rw [hraw] at h
    cases h
  | ok raw =>
    rw [hraw] at h
    dsimp only at h
    cases hloads : loadsBytes py raw with
    | error e =>
      rw [hloads] at h
      cases h
    | ok parsed =>
      rw [hloads] at h
      cases parsed with
      | none => exact absurd h (not_mem_send _ _)
      | some data =>
        obtain ⟨body, rfl, htenant, hlist⟩ := tenant_of_answerJson h
        exact ⟨⟨raw, body, rfl, hloads, htenant⟩, hlist⟩

/-- Whoever is vended a token has presented the secret, for a tenant on the list if there is one. -/
theorem doPost_authorised : Authorised py cfg post (doPost py cfg store env s post []) := by
  intro tenantId erpPlatform h
  unfold doPost at h
  split at h
  · exact absurd h (not_mem_send _ _)
  split at h
  · exact absurd h (not_mem_send _ _)
  split at h
  · exact absurd h (not_mem_send _ _)
  rename_i hsecret hverify
  obtain ⟨-, hheader⟩ := (verifySharedSecret_iff _ _).mp (Bool.eq_true_of_not_eq_false hverify)
  exact ⟨hsecret, hheader, tenant_of_answerBody h⟩

end Calls

/-- The handler answers a request exactly if it is refused for its secret, or its body is one that the
handler is prepared for; and whatever the request, nobody is vended a token without being authorized. -/
theorem endpoint_answers_iff (py : Interpreter) (cfg : Config) (store : StoreOf Text σ) (env : SignEnv)
    (s : σ) (hstore : SoundStore id store s) (post : Post)
    (hpath : post.path = "/vend" ∨ post.path = "/sign") :
    Answers (doPost py cfg store env s post []) ∧ Authorised py cfg post (doPost py cfg store env s post []) ↔
      Serviceable py cfg store env s post := by
  rw [and_iff_left doPost_authorised]
  unfold doPost Serviceable
  have hnotFound : ¬ (post.path ≠ "/vend" ∧ post.path ≠ "/sign") := by
    rintro ⟨hvend, hsign⟩
    exact hpath.elim hvend hsign
  rw [if_neg hnotFound]
  by_cases hsecret : cfg.apiSecret = ""
  · rw [if_pos hsecret]
    exact iff_of_true (answers_send _ _ (by simp [statuses]) nofun) (.inl hsecret)
  · rw [if_neg hsecret, or_iff_right hsecret]
    by_cases hverify : verifySharedSecret (post.header authHeader) cfg.apiSecret = false
    · rw [if_pos hverify]
      refine iff_of_true (answers_send _ _ (by simp [statuses]) nofun) (.inl fun heq => ?_)
      rw [(verifySharedSecret_iff _ _).mpr ⟨hsecret, heq⟩] at hverify
      cases hverify
    · obtain ⟨-, hheader⟩ := (verifySharedSecret_iff _ _).mp (Bool.eq_true_of_not_eq_false hverify)
      rw [if_neg hverify, or_iff_right (not_not.mpr hheader)]
      exact answerBody_iff hstore hpath

/-! ## Stores that Vault has written -/

/-- What is stored has all fields. -/
def Complete {τ : Type} (s : String × τ → Option Obj) : Prop :=
  ∀ k creds, s k = some creds → ∀ f ∈ Vault.requiredFields k.1, f ∈ creds.keys

theorem mem_keys_set {d : Obj} {f : String} (h : f ∈ d.keys) (k : String) (v : Json) :
    f ∈ Obj.keys (d.set k v) := by
  rw [Obj.keys_set]
  by_cases hk : k ∈ d.keys
  · rw [if_pos hk]
    exact h
  · rw [if_neg hk]
    exact List.mem_append_left _ h

/-- A change writes what is complete if it makes that of what is complete. -/
theorem onEntry_complete {τ : Type} [Name τ] [DecidableEq τ] {f : Vault.Change}
    (hf : ∀ platform entry creds, f platform entry = .ok (some creds) →
      (∀ old, entry = .ok (some old) → ∀ k ∈ Vault.requiredFields platform, k ∈ old.keys) →
      ∀ k ∈ Vault.requiredFields platform, k ∈ creds.keys)
    {s : String × τ → Option Obj} (h : Complete s) (tenantId erpPlatform : τ) :
    Complete (Vault.onEntry tenantId erpPlatform f s).2 := by
  unfold Vault.onEntry
  cases Name.normalizePlatform erpPlatform with
  | error e => exact h
  | ok platform =>
    dsimp only
    have hold : ∀ old, Vault.entryOf platform tenantId s = .ok (some old) →
        ∀ k ∈ Vault.requiredFields platform, k ∈ old.keys := by
      intro old hentry
      unfold Vault.entryOf InMemoryCredentialStore.key at hentry
      cases hkey : Name.dictKey tenantId with
      | none =>
        rw [hkey] at hentry
        cases hentry
      | some t =>
        rw [hkey] at hentry
        exact h (platform, t) old (Except.ok.inj hentry)
    unfold Vault.writeEntry
    cases hentry : f platform (Vault.entryOf platform tenantId s) with
    | error e => exact h
    | ok entry =>
      unfold InMemoryCredentialStore.key
      cases Name.dictKey tenantId with
      | none => exact h
      | some t =>
        intro k creds hk
        dsimp only at hk
        rw [Function.update_apply] at hk
        by_cases hkey : k = (platform, t)
        · rw [if_pos hkey] at hk
          rw [hkey]
          exact hf platform _ creds (hk ▸ hentry) hold
        · rw [if_neg hkey] at hk
          exact h k creds hk

theorem perform_complete (rt : Runtime) (env : VaultAgent.Env) (op : VaultOp)
    {w : VaultAgent.World InMemoryCredentialStore} (h : Complete w.self) :
    Complete (VaultOp.perform rt InMemoryCredentialStore.store env op w).2.self := by
  have hvends : op.vends = true →
      (VaultOp.perform rt InMemoryCredentialStore.store env op w).2.self = w.self := fun hop =>
    (VaultOp.perform_vends rt env hop (v := w) fun _ _ _ => rfl).2.1
  cases op with
  | storeCredentials tenantId erpPlatform creds =>
    simp only [VaultOp.perform, Vault.storeCredentials_eq]
    refine onEntry_complete (fun platform _ creds' hcreds _ k hk => ?_) h _ _
    unfold Vault.storedEntry at hcreds
    split at hcreds
    · cases hcreds
    · rename_i hmissing
      obtain rfl := Option.some.inj (Except.ok.inj hcreds)
      have hnone := List.filter_eq_nil_iff.mp (not_not.mp hmissing) k hk
      simpa using hnone
  | rotateToken tenantId erpPlatform tokenId tokenSecret =>
    simp only [VaultOp.perform, Vault.rotateToken_eq]
    refine onEntry_complete (fun platform entry creds' hcreds hold k hk => ?_) h _ _
    unfold Vault.rotatedEntry at hcreds
    split at hcreds
    · cases hcreds
    · cases hcreds
    · obtain rfl := Option.some.inj (Except.ok.inj hcreds)
      exact mem_keys_set (mem_keys_set (hold _ rfl k hk) _ _) _ _
  | revoke tenantId erpPlatform =>
    simp only [VaultOp.perform, Vault.revoke_eq]
    exact onEntry_complete (fun _ _ _ hcreds => by cases hcreds) h _ _
  | vend body => exact hvends rfl ▸ h
  | request event => exact hvends rfl ▸ h
  | vendToken tenantId erpPlatform scopes ttl => exact hvends rfl ▸ h

theorem soundStore_of_complete {s : String × Text → Option Obj} (h : Complete s) :
    SoundStore id InMemoryCredentialStore.store s :=
  ⟨fun platform t => ⟨s (platform, t), rfl⟩,
    fun platform t creds hget => h (platform, t) creds (Except.ok.inj hget)⟩

theorem complete_texts {s : InMemoryCredentialStore} (h : Complete s) : Complete s.texts := by
  rintro ⟨platform, t⟩ creds hget
  obtain ⟨name, -, hcreds⟩ := Option.bind_eq_some_iff.mp hget
  exact h (platform, .str name) creds hcreds

/-- **Whatever a Vault is asked for, its store stays one that the endpoint can rest on.** -/
theorem soundStore_after (rt : Runtime) (calls : List (VaultAgent.Env × VaultOp))
    {w : VaultAgent.World InMemoryCredentialStore} (h : Complete w.self) :
    SoundStore id InMemoryCredentialStore.store
      (InMemoryCredentialStore.texts (Unwinding.after (fun v (c : VaultAgent.Env × VaultOp) =>
        VaultOp.perform rt InMemoryCredentialStore.store c.1 c.2 v) w calls).self) :=
  soundStore_of_complete (complete_texts (Unwinding.after_invariant
    (fun _ (v : VaultAgent.World InMemoryCredentialStore) => Complete v.self)
    (fun _ _ c hv => perform_complete rt c.1 c.2 hv) calls [] h))

theorem texts_ofString (s : InMemoryCredentialStore) (platform name : String) :
    s.texts (platform, Text.ofString name) = s (platform, .str name) := by
  unfold InMemoryCredentialStore.texts
  rw [Text.string?_ofString, Option.bind_some]

theorem vendFor_ofString (s : InMemoryCredentialStore) (tenantId erpPlatform : String) (ttl now : ℚ) :
    VaultService.vendFor .str Wide.ofJson InMemoryCredentialStore.store (Text.ofString tenantId)
        (Text.ofString erpPlatform) ttl now s.texts =
      (VaultService.vendFor id id InMemoryCredentialStore.store (Json.str tenantId) (.str erpPlatform) ttl now
        s).map (ReplyOf.map Wide.ofJson) := by
  have hplatform : Name.normalizePlatform (Text.ofString erpPlatform) =
      Name.normalizePlatform (Json.str erpPlatform) := by
    show Vault.normalizeText (Text.ofString erpPlatform) = Vault.normalizePlatform (.str erpPlatform)
    unfold Vault.normalizeText
    rw [Text.string?_ofString]
  have hcredentials : ∀ platform, Vault.credentials InMemoryCredentialStore.store platform
        (Text.ofString tenantId) s.texts =
      Vault.credentials InMemoryCredentialStore.store platform (Json.str tenantId) s := by
    intro platform
    have hrepr : Name.repr (Text.ofString tenantId) = Name.repr (Json.str tenantId) :=
      Text.repr_ofString tenantId
    have hget : InMemoryCredentialStore.store.get platform (Text.ofString tenantId) s.texts =
        InMemoryCredentialStore.store.get platform (Json.str tenantId) s :=
      congrArg Except.ok (texts_ofString s platform tenantId)
    unfold Vault.credentials
    rw [hget, hrepr]
  unfold VaultService.vendFor Vault.vendToken
  rw [hplatform]
  cases Name.normalizePlatform (Json.str erpPlatform) with
  | error e => cases e <;> rfl
  | ok platform =>
    simp only [bind, Except.bind]
    rw [hcredentials]
    cases Vault.credentials InMemoryCredentialStore.store platform (Json.str tenantId) s with
    | error e => cases e <;> rfl
    | ok creds =>
      dsimp only
      cases Vault.field creds "account_id" with
      | error e => cases e <;> rfl
      | ok accountId =>
        cases Vault.field creds "consumer_key" with
        | error e => cases e <;> rfl
        | ok consumerKey =>
          cases Vault.field creds "token_id" with
          | error e => cases e <;> rfl
          | ok tokenId => rfl

theorem textField_ofItems (body : Obj) (f : String) :
    VaultService.textField (Wide.ofItems body) f =
      if VaultService.isNonemptyStr (body.get f) then
        match body.get f with
        | .str name => some (Text.ofString name)
        | _ => none
      else none := by
  unfold VaultService.textField
  rw [Wide.get_ofItems]
  cases body.get f with
  | str name =>
    simp only [Wide.ofJson, VaultService.isNonemptyStr, decide_eq_true_eq, Text.ofString_eq_nil_iff, ne_eq,
      ite_not]
  | _ => rfl

/-- **To a body without halves the endpoint replies as the service does.** -/
theorem vendText_ofItems (body : Obj) (ttl now : ℚ) (s : InMemoryCredentialStore) :
    VaultService.vendText InMemoryCredentialStore.store (Wide.ofItems body) ttl now s.texts =
      (VaultService.vend InMemoryCredentialStore.store body ttl now s).map (ReplyOf.map Wide.ofJson) := by
  unfold VaultService.vendText VaultService.vend
  rw [textField_ofItems, textField_ofItems]
  by_cases htenant : VaultService.isNonemptyStr (body.get "tenant_id") = true
  · by_cases hplatform : VaultService.isNonemptyStr (body.get "erp_platform") = true
    · obtain ⟨tenantId, ht, -⟩ := isNonemptyStr_iff.mp htenant
      obtain ⟨erpPlatform, hp, -⟩ := isNonemptyStr_iff.mp hplatform
      rw [if_pos htenant, if_pos hplatform, if_pos (Bool.and_eq_true_iff.mpr ⟨htenant, hplatform⟩), ht, hp]
      exact vendFor_ofString s tenantId erpPlatform ttl now
    · rw [if_neg hplatform, if_neg fun h => hplatform (Bool.and_eq_true_iff.mp h).2]
      rw [if_pos htenant]
      split
      · rename_i h
        cases h
      · rfl
  · rw [if_neg htenant, if_neg fun h => htenant (Bool.and_eq_true_iff.mp h).1]
    rfl

theorem complete_empty {τ : Type} : Complete fun _ : String × τ => none :=
  fun _ _ h => by cases h

/-! ## Requests that are dropped -/

/-- An interpreter with memory for a body of a megabyte. -/
def localInterpreter : Interpreter where
  platform := ⟨fun s => String.ofList (s.toList.map Char.toUpper), fun _ text => text⟩
  jsonLimit := fun _ => false
  strLimit := fun _ => false
  maxRead := 1048576

def localEnv : SignEnv := ⟨300, 0, 1, 1, "nonce"⟩

/-- A request of a caller who knows the secret. -/
def postOf (path : String) (body : List Char) : Post where
  path := path
  header := fun name =>
    if name = authHeader then some "secret"
    else if name = "Content-Length" then some (toString body.length)
    else none
  stream := body.map fun c => UInt8.ofNat c.toNat

theorem endpoint_answers_iff_object :
    Answers (doPost localInterpreter ⟨"secret", []⟩ InMemoryCredentialStore.store localEnv (fun _ => none)
        (postOf "/vend" ['{', '}']) []) ∧
      Authorised localInterpreter ⟨"secret", []⟩ (postOf "/vend" ['{', '}'])
        (doPost localInterpreter ⟨"secret", []⟩ InMemoryCredentialStore.store localEnv (fun _ => none)
          (postOf "/vend" ['{', '}']) []) ↔
      Serviceable localInterpreter ⟨"secret", []⟩ InMemoryCredentialStore.store localEnv (fun _ => none)
        (postOf "/vend" ['{', '}']) :=
  endpoint_answers_iff _ _ _ _ _ (soundStore_of_complete complete_empty) _ (.inl rfl)

/-- An empty array is a JSON text, and has no `get`. -/
theorem endpoint_drops_array :
    ¬ ∀ (py : Interpreter) (cfg : Config) (env : SignEnv) (s : String × Text → Option Obj)
        (post : Post), SoundStore id InMemoryCredentialStore.store s → post.path = "/vend" ∨ post.path = "/sign" →
        Answers (doPost py cfg InMemoryCredentialStore.store env s post []) := by
  intro h
  have hanswers := h localInterpreter ⟨"secret", []⟩ localEnv (fun _ => none) (postOf "/vend" ['[', ']'])
    (soundStore_of_complete complete_empty) (.inl rfl)
  have hraises : (doPost localInterpreter ⟨"secret", []⟩ InMemoryCredentialStore.store localEnv
      (fun _ => none) (postOf "/vend" ['[', ']']) []).1 =
        .error (.py (.attributeError "no attribute 'get'")) := by
    rfl
  rw [hanswers.1] at hraises
  cases hraises

end VaultHandler

end CaviErp

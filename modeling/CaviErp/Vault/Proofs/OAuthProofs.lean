import CaviErp.Lib.Dict
import CaviErp.Vault.OAuth
import Mathlib

/-!
# What a signature covers, and in which order

From the base string, the method, the url and the parameters can be read off again. The parameters are
sorted before they are encoded; a server that sorts them after that finds the same order, unless an escape
stands against an unreserved character.
-/

namespace CaviErp

open Py

namespace OAuth1a

/-! ## Encoded texts -/

theorem lt_of_unreserved (c : Char) (h : unreserved c = true) : '%' < c := by
  have hnat : 37 < c.toNat := by
    simp only [unreserved, Char.isAlphanum, Char.isAlpha, Char.isUpper, Char.isLower, Char.isDigit,
      Bool.or_eq_true, Bool.and_eq_true, decide_eq_true_eq, beq_iff_eq, UInt32.le_iff_toNat_le,
      ge_iff_le] at h
    change (((((((65 ≤ c.toNat ∧ c.toNat ≤ 90) ∨ (97 ≤ c.toNat ∧ c.toNat ≤ 122)) ∨
      (48 ≤ c.toNat ∧ c.toNat ≤ 57)) ∨ c = '-') ∨ c = '.') ∨ c = '_') ∨ c = '~') at h
    rcases h with ((((((h | h) | h) | rfl) | rfl) | rfl) | rfl)
    · omega
    · omega
    · omega
    all_goals decide
  exact hnat

/-- A text that is encoded holds none of the separators. -/
theorem not_mem_percent {x : Char} (hx : unreserved x = false) (hne : x ≠ '%')
    (hhex : ∀ n < 16, x ≠ Percent.hexDigit n) (v : Json) : x ∉ (percent v).toList := by
  unfold percent
  rw [String.toList_ofList]
  intro h
  rcases Percent.mem_escape h with hkeep | hpercent | ⟨n, hn, heq⟩
  · rw [hx] at hkeep
    cases hkeep
  · exact hne hpercent
  · exact hhex n hn heq

theorem ampersand_not_mem (v : Json) : '&' ∉ (percent v).toList :=
  not_mem_percent (by decide) (by decide) (by decide) v

theorem equals_not_mem (v : Json) : '=' ∉ (percent v).toList :=
  not_mem_percent (by decide) (by decide) (by decide) v

/-- The text of a value can be read off its encoding. -/
theorem pyStr_of_percent {v w : Json} (h : percent v = percent w) : v.pyStr = w.pyStr := by
  have hlist := Percent.escape_injective lt_of_unreserved (String.ofList_injective h)
  exact String.toList_injective hlist

/-! ## Dictionaries -/

theorem merge_nodup {d : Obj} (hd : d.keys.Nodup) (e : Obj) : (merge d e).keys.Nodup := by
  induction e generalizing d with
  | nil => exact hd
  | cons kv e ih =>
    refine ih ?_
    rw [Obj.keys_set]
    by_cases hk : kv.1 ∈ d.keys
    · rwa [if_pos hk]
    · rw [if_neg hk]
      exact List.Nodup.append hd (List.nodup_singleton _) (List.disjoint_singleton.mpr hk)

theorem get?_merge {e : Obj} {k : String} (hk : k ∉ e.keys) (d : Obj) :
    (merge d e).get? k = d.get? k := by
  induction e generalizing d with
  | nil => rfl
  | cons kv e ih =>
    obtain ⟨hne, hrest⟩ := not_or.mp (mt List.mem_cons.mpr hk)
    exact (ih hrest _).trans ((Obj.get?_set ..).trans (if_neg hne))

/-- What is merged is in the result, under its key. -/
theorem mem_keys_merge {e : Obj} {k : String} (d : Obj) :
    k ∈ (merge d e).keys ↔ k ∈ d.keys ∨ k ∈ e.keys := by
  induction e generalizing d with
  | nil => simp [merge, Obj.keys]
  | cons kv e ih =>
    have hset : k ∈ (d.set kv.1 kv.2).keys ↔ k ∈ d.keys ∨ k = kv.1 := by
      rw [Obj.keys_set]
      by_cases hk : kv.1 ∈ d.keys
      · rw [if_pos hk, or_iff_left_of_imp]
        rintro rfl
        exact hk
      · rw [if_neg hk, List.mem_append, List.mem_singleton]
    have hcons : k ∈ Obj.keys (kv :: e) ↔ k = kv.1 ∨ k ∈ Obj.keys e := List.mem_cons
    exact (ih _).trans (by rw [hset, hcons, or_assoc])

theorem merge_of_disjoint {d e : Obj} (he : e.keys.Nodup) (h : ∀ k ∈ e.keys, k ∉ d.keys) :
    merge d e = d ++ e :=
  Obj.foldl_set he h

/-! ## Joined pairs -/

/-- Names and values as they are joined. -/
def joined (l : List (String × String)) : String := "&".intercalate (l.map fun p => p.1 ++ "=" ++ p.2)

/-- A pair in its encoding. -/
def encoded (kv : String × String) : String × String := (percent (.str kv.1), percent (.str kv.2))

theorem encoded_injective : Function.Injective encoded := by
  intro p q h
  obtain ⟨hname, hvalue⟩ := Prod.mk.inj h
  exact Prod.ext (pyStr_of_percent hname) (pyStr_of_percent hvalue)

/-- The names and values can be read off again. -/
theorem joined_inj {l l' : List (String × String)} (hl : l ≠ []) (hl' : l' ≠ [])
    (h : joined (l.map encoded) = joined (l'.map encoded)) : l = l' := by
  let piece : String × String → List Char := fun kv =>
    (percent (.str kv.1)).toList ++ '=' :: (percent (.str kv.2)).toList
  have hlists : ∀ l : List (String × String),
      (joined (l.map encoded)).toList = ['&'].intercalate (l.map piece) := by
    intro l
    unfold joined
    rw [String.toList_intercalate, List.map_map, List.map_map]
    refine congrArg _ (List.map_congr_left fun kv _ => ?_)
    simp only [Function.comp_apply, encoded, String.toList_append, List.append_assoc]
    rfl
  have hsep : ∀ l : List (String × String), ∀ t ∈ l.map piece, '&' ∉ t := by
    intro l t ht
    obtain ⟨kv, -, rfl⟩ := List.mem_map.mp ht
    rw [List.mem_append, List.mem_cons, not_or, not_or]
    exact ⟨ampersand_not_mem _, by decide, ampersand_not_mem _⟩
  have hpiece : Function.Injective piece := by
    intro p q hpq
    obtain ⟨hname, hvalue⟩ := Percent.sep_inj_left (equals_not_mem _) (equals_not_mem _) hpq
    exact encoded_injective (Prod.ext (String.toList_injective hname) (String.toList_injective hvalue))
  have htexts := congrArg String.toList h
  rw [hlists, hlists] at htexts
  have hpieces := Percent.join_inj (mt List.map_eq_nil_iff.mp hl) (mt List.map_eq_nil_iff.mp hl')
    (hsep l) (hsep l') htexts
  exact List.map_injective_iff.mpr hpiece hpieces

/-- Names with the texts of their values. -/
def texts (d : Obj) : List (String × String) := d.map fun kv => (kv.1, kv.2.pyStr)

theorem texts_fst (d : Obj) : (texts d).map Prod.fst = d.keys := by
  unfold texts
  rw [List.map_map]
  rfl

theorem normalized_eq (d : Obj) : normalized d = joined ((texts (sortedItems d)).map encoded) := by
  unfold normalized joined texts
  rw [List.map_map, List.map_map]
  rfl

theorem sortedItems_perm (d : Obj) : (sortedItems d).Perm d := List.mergeSort_perm _ _

theorem texts_perm (d : Obj) : (texts (sortedItems d)).Perm (texts d) := (sortedItems_perm d).map _

/-- The names are sorted. -/
theorem sortedItems_sorted {d : Obj} (hd : d.keys.Nodup) :
    ((texts (sortedItems d)).map Prod.fst).Pairwise (· < ·) := by
  have hle : (sortedItems d).Pairwise fun p q => decide (p.1 ≤ q.1) = true := by
    refine List.pairwise_mergeSort (fun a b c hab hbc => ?_) (fun a b => ?_) d
    · exact decide_eq_true ((of_decide_eq_true hab).trans (of_decide_eq_true hbc))
    · rw [Bool.or_eq_true, decide_eq_true_iff, decide_eq_true_iff]
      exact le_total a.1 b.1
  have hnodup : (Obj.keys (sortedItems d)).Nodup := ((sortedItems_perm d).map Prod.fst).nodup_iff.mpr hd
  rw [texts_fst]
  refine List.pairwise_map.mpr ?_
  refine (hle.and (List.pairwise_map.mp hnodup)).imp ?_
  rintro p q ⟨hpq, hne⟩
  exact lt_of_le_of_ne (of_decide_eq_true hpq) hne

/-! ## The request -/

section Request

variable {creds : Obj} {nonce timestamp : String}

theorem oauthParams_eq {oauth : Obj} (h : oauthParams creds nonce timestamp = .ok oauth) :
    oauth.keys = oauthNames ∧ requestParams creds none nonce timestamp = texts oauth := by
  unfold oauthParams at h
  obtain ⟨consumerKey, hkey, h⟩ := bind_eq_ok h
  obtain ⟨tokenId, htoken, h⟩ := bind_eq_ok h
  obtain rfl := Except.ok.inj h
  have hget : ∀ k v, item (.obj creds) k = .ok v → creds.get k = v := by
    intro k v hitem
    unfold item at hitem
    cases hk : Obj.get? creds k with
    | none =>
      simp only [hk] at hitem
      cases hitem
    | some w =>
      simp only [hk] at hitem
      rw [Obj.get, hk]
      exact Except.ok.inj hitem
  refine ⟨rfl, ?_⟩
  unfold requestParams
  rw [hget _ _ hkey, hget _ _ htoken]
  rfl

/-- The query parameters as a dictionary. -/
def queryObj (query : Option QueryParams) : Obj := (queryItems query).map fun kv => (kv.1, .str kv.2)

theorem texts_queryObj (query : Option QueryParams) : texts (queryObj query) = queryItems query := by
  unfold texts queryObj
  rw [List.map_map]
  exact List.map_id _

theorem keys_queryObj (query : Option QueryParams) :
    (queryObj query).keys = (queryItems query).map Prod.fst := by
  rw [← texts_fst, texts_queryObj]

theorem queryItems_nodup (query : Option QueryParams) : ((queryItems query).map Prod.fst).Nodup := by
  cases query with
  | none => exact List.nodup_nil
  | some q => exact q.nodup

theorem signedParams_query (query : Option QueryParams) (oauth : Obj) :
    signedParams (queryJson query) oauth = .ok (merge (queryObj query) oauth) := by
  cases query with
  | none => rfl
  | some q =>
    unfold signedParams queryJson
    cases hitems : q.items with
    | nil =>
      unfold queryObj queryItems
      simp only [hitems]
      rfl
    | cons kv items =>
      unfold queryObj queryItems
      simp only [hitems]
      rfl

/-- What the normalized parameters of a request are made of. -/
theorem normalizedParams_query {query : Option QueryParams} {s : String}
    (h : normalizedParams creds (queryJson query) nonce timestamp = .ok s) :
    ∃ signed : Obj, s = joined ((texts (sortedItems signed)).map encoded) ∧ signed.keys.Nodup ∧
      (∀ k, k ∈ signed.keys ↔ k ∈ (queryItems query).map Prod.fst ∨ k ∈ oauthNames) ∧
      (∀ k, k ∉ oauthNames → (texts signed).lookup k = (queryItems query).lookup k) ∧
      (FreeOfOAuth query → texts signed = requestParams creds query nonce timestamp) := by
  unfold normalizedParams at h
  obtain ⟨oauth, hoauth, h⟩ := bind_eq_ok h
  rw [signedParams_query] at h
  obtain rfl := Except.ok.inj h
  obtain ⟨hkeys, htexts⟩ := oauthParams_eq hoauth
  have hquery : (queryObj query).keys.Nodup := keys_queryObj query ▸ queryItems_nodup query
  refine ⟨merge (queryObj query) oauth, normalized_eq _, merge_nodup hquery _, fun k => ?_, fun k hk => ?_,
    fun hfree => ?_⟩
  · rw [mem_keys_merge, keys_queryObj, hkeys]
  · have hlookup : ∀ d : Obj, (texts d).lookup k = (d.get? k).map Json.pyStr := by
      intro d
      induction d with
      | nil => rfl
      | cons kv d ih =>
        show List.lookup k ((kv.1, kv.2.pyStr) :: texts d) = _
        rw [Dict.lookup_cons, ih, Obj.get?, Obj.get?, Dict.lookup_cons]
        by_cases hkv : k = kv.1
        · rw [if_pos hkv, if_pos hkv]
          rfl
        · rw [if_neg hkv, if_neg hkv]
    rw [hlookup, get?_merge (hkeys ▸ hk), ← hlookup, texts_queryObj]
  · have hdisjoint : ∀ k ∈ oauth.keys, k ∉ (queryObj query).keys := by
      intro k hk hmem
      rw [keys_queryObj] at hmem
      obtain ⟨kv, hkv, rfl⟩ := List.mem_map.mp hmem
      exact hfree kv hkv (hkeys ▸ hk)
    rw [merge_of_disjoint (hkeys ▸ by decide) hdisjoint]
    unfold texts at htexts ⊢
    rw [List.map_append, ← htexts]
    exact congrArg (· ++ _) (texts_queryObj query)

end Request

/-! ## What is signed -/

/-- Requests with one base string have the same method, url and parameters. -/
theorem signature_binds_request (platform : Platform) (creds : Obj) (nonce timestamp : String)
    {method method' url url' : String} {query query' : Option QueryParams} (hfree : FreeOfOAuth query)
    (hfree' : FreeOfOAuth query') {base : String}
    (h : baseString platform creds method url (queryJson query) nonce timestamp = .ok base)
    (h' : baseString platform creds method' url' (queryJson query') nonce timestamp = .ok base) :
    platform.upper method = platform.upper method' ∧ url = url' ∧
      ∀ name, (queryItems query).lookup name = (queryItems query').lookup name := by
  unfold baseString at h h'
  obtain ⟨s, hs, h⟩ := bind_eq_ok h
  obtain ⟨s', hs', h'⟩ := bind_eq_ok h'
  obtain rfl := Except.ok.inj h
  -- what follows the method holds no ampersand, so the text is taken apart from its end
  have hlist : ∀ m u n : String, ("&".intercalate [m, u, n]).toList =
      (m.toList ++ '&' :: u.toList) ++ '&' :: n.toList := by
    intro m u n
    rw [String.toList_intercalate]
    simp [List.intercalate]
  have hparts := congrArg String.toList (Except.ok.inj h')
  rw [hlist, hlist] at hparts
  obtain ⟨hfront, hnormalized⟩ := Percent.sep_inj_right (ampersand_not_mem _) (ampersand_not_mem _) hparts
  obtain ⟨hmethod, hurl⟩ := Percent.sep_inj_right (ampersand_not_mem _) (ampersand_not_mem _) hfront
  have hss : s = s' := (pyStr_of_percent (String.toList_injective hnormalized)).symm
  refine ⟨(String.toList_injective hmethod).symm, (pyStr_of_percent (String.toList_injective hurl)).symm,
    fun name => ?_⟩
  obtain ⟨signed, rfl, hnodup, hkeys, hlookup, -⟩ := normalizedParams_query hs
  obtain ⟨signed', rfl, hnodup', hkeys', hlookup', -⟩ := normalizedParams_query hs'
  have hne : ∀ {d : Obj} {q : Option QueryParams},
      (∀ k, k ∈ d.keys ↔ k ∈ (queryItems q).map Prod.fst ∨ k ∈ oauthNames) → texts (sortedItems d) ≠ [] := by
    intro d q hk hnil
    have hmem : "oauth_token" ∈ Obj.keys d := (hk _).mpr (.inr (by decide))
    rw [← texts_fst] at hmem
    have hperm := texts_perm d
    rw [hnil] at hperm
    rw [← hperm.nil_eq] at hmem
    cases hmem
  have hsorted := joined_inj (hne hkeys) (hne hkeys') hss
  have hperm : (texts signed).Perm (texts signed') := by
    refine (texts_perm signed).symm.trans ?_
    rw [hsorted]
    exact texts_perm signed'
  by_cases hname : name ∈ oauthNames
  · have hnone : ∀ {q : Option QueryParams}, FreeOfOAuth q → (queryItems q).lookup name = none := by
      intro q hq
      refine Dict.lookup_eq_none_iff.mpr fun hmem => ?_
      obtain ⟨kv, hkv, rfl⟩ := List.mem_map.mp hmem
      exact hq kv hkv hname
    rw [hnone hfree, hnone hfree']
  · rw [← hlookup name hname, ← hlookup' name hname]
    exact Dict.lookup_perm (texts_fst signed ▸ hnodup) hperm name

theorem signature_binds_request_page :
    let platform : Platform := ⟨fun s => String.ofList (s.toList.map Char.toUpper), fun _ text => text⟩
    let query : Option QueryParams := some ⟨[("limit", "5&offset=2")], by decide⟩
    platform.upper "get" = platform.upper "GET" ∧
      "https://x.suitetalk.api.netsuite.com" = "https://x.suitetalk.api.netsuite.com" ∧
      ∀ name, (queryItems query).lookup name = (queryItems query).lookup name :=
  signature_binds_request _ [("consumer_key", "ck"), ("token_id", "t")] "nonce" "1" (by decide) (by decide)
    rfl rfl

/-! ## The order of the parameters -/

/-- Parameters compared as they are encoded. -/
def encodedLe (p q : String × String) : Bool := decide (toLex (encoded p) ≤ toLex (encoded q))

theorem rfcNormalized_eq (params : List (String × String)) :
    rfcNormalized params = joined ((params.mergeSort encodedLe).map encoded) := by
  have hsort : (params.mergeSort encodedLe).map encoded =
      (params.map encoded).mergeSort fun p q => decide (toLex p ≤ toLex q) :=
    List.map_mergeSort fun _ _ _ _ => rfl
  rw [hsort]
  rfl

theorem pairwise_encodedLe (params : List (String × String)) :
    (params.mergeSort encodedLe).Pairwise fun p q => encodedLe p q = true := by
  refine List.pairwise_mergeSort (fun a b c hab hbc => ?_) (fun a b => ?_) _
  · exact decide_eq_true ((of_decide_eq_true hab).trans (of_decide_eq_true hbc))
  · unfold encodedLe
    rw [Bool.or_eq_true, decide_eq_true_iff, decide_eq_true_iff]
    exact le_total (toLex (encoded a)) (toLex (encoded b))

theorem encoded_lt {a b : String} (h : a < b) :
    percent (.str a) < percent (.str b) ↔ Percent.swapped unreserved a.toList b.toList = false := by
  rw [String.lt_iff_toList_lt]
  unfold percent
  rw [String.toList_ofList, String.toList_ofList]
  exact Percent.escape_lt_iff lt_of_unreserved (String.lt_iff_toList_lt.mp h)

theorem requestParams_fst (creds : Obj) (query : Option QueryParams) (nonce timestamp : String) :
    (requestParams creds query nonce timestamp).map Prod.fst =
      (queryItems query).map Prod.fst ++ oauthNames := by
  unfold requestParams
  rw [List.map_append]
  rfl

section Order

variable {creds : Obj} {query : Option QueryParams} {nonce timestamp : String}

/-- Names that are sorted and keep their order are sorted when they are encoded. -/
theorem normalized_of_keepsOrder {s : String}
    (h : normalizedParams creds (queryJson query) nonce timestamp = .ok s) (hfree : FreeOfOAuth query)
    (horder : KeepsOrder ((queryItems query).map Prod.fst ++ oauthNames)) :
    s = rfcNormalized (requestParams creds query nonce timestamp) := by
  obtain ⟨signed, rfl, hnodup, hkeys, -, htexts⟩ := normalizedParams_query h
  rw [rfcNormalized_eq]
  refine congrArg (fun l : List (String × String) => joined (l.map encoded)) ?_
  refine @List.Perm.eq_of_pairwise _ (fun p q => encodedLe p q = true) _ _ ?_ ?_ (pairwise_encodedLe _) ?_
  · intro p q _ _ hpq hqp
    have heq := le_antisymm (of_decide_eq_true hpq) (of_decide_eq_true hqp)
    exact encoded_injective (toLex.injective heq)
  · refine (List.pairwise_map.mp (sortedItems_sorted hnodup)).imp_of_mem ?_
    intro p q hp hq hpq
    have hmem : ∀ p ∈ texts (sortedItems signed), p.1 ∈ (queryItems query).map Prod.fst ++ oauthNames := by
      intro p hp
      rw [List.mem_append, ← hkeys, ← texts_fst]
      exact List.mem_map_of_mem ((texts_perm signed).subset hp)
    have hlt := (encoded_lt hpq).mpr (horder _ (hmem p hp) _ (hmem q hq))
    exact decide_eq_true (Prod.Lex.toLex_le_toLex.mpr (.inl hlt))
  · rw [← htexts hfree]
    exact (texts_perm signed).trans (List.mergeSort_perm _ _).symm

/-- A request that is normalized as the RFC says lists its own parameters, and their names keep their
order. -/
theorem keepsOrder_of_normalized {s : String}
    (h : normalizedParams creds (queryJson query) nonce timestamp = .ok s)
    (heq : s = rfcNormalized (requestParams creds query nonce timestamp)) :
    FreeOfOAuth query ∧ KeepsOrder ((queryItems query).map Prod.fst ++ oauthNames) := by
  obtain ⟨signed, rfl, hnodup, hkeys, -, -⟩ := normalizedParams_query h
  have hsorted := sortedItems_sorted hnodup
  rw [rfcNormalized_eq] at heq
  have hmem : ∀ a ∈ (queryItems query).map Prod.fst ++ oauthNames,
      ∃ p ∈ texts (sortedItems signed), p.1 = a := by
    intro a ha
    rw [List.mem_append, ← hkeys, ← texts_fst] at ha
    obtain ⟨p, hp, rfl⟩ := List.mem_map.mp ha
    exact ⟨p, (texts_perm signed).symm.subset hp, rfl⟩
  have hne : texts (sortedItems signed) ≠ [] := by
    obtain ⟨p, hp, -⟩ := hmem "oauth_token" (List.mem_append_right _ (by decide))
    exact List.ne_nil_of_mem hp
  have hne' : (requestParams creds query nonce timestamp).mergeSort encodedLe ≠ [] := by
    intro hnil
    have hlength := congrArg List.length hnil
    rw [List.length_mergeSort, ← List.length_map (f := Prod.fst), requestParams_fst,
      List.length_append] at hlength
    exact absurd hlength (Nat.succ_ne_zero _)
  have hlists : texts (sortedItems signed) =
      (requestParams creds query nonce timestamp).mergeSort encodedLe := joined_inj hne hne' heq
  constructor
  · -- the names of the result are distinct, so those of the request are
    have hperm : (texts (sortedItems signed)).Perm (requestParams creds query nonce timestamp) :=
      hlists ▸ List.mergeSort_perm _ _
    have hdistinct := (hperm.map Prod.fst).nodup_iff.mp (hsorted.imp fun h => ne_of_lt h)
    rw [requestParams_fst] at hdistinct
    intro kv hkv hname
    exact List.disjoint_of_nodup_append hdistinct (List.mem_map_of_mem hkv) hname
  · -- of two names that are swapped, the one that is listed first has the larger encoding
    let R : String × String → String × String → Prop := fun p q => p.1 < q.1 → encodedLe p q = true
    have hforward : (texts (sortedItems signed)).Pairwise R := by
      rw [hlists]
      exact (pairwise_encodedLe _).imp fun {p q} (hle : encodedLe p q = true) (_ : p.1 < q.1) => hle
    have hbackward : (texts (sortedItems signed)).Pairwise (flip R) :=
      (List.pairwise_map.mp hsorted).imp fun h h' => absurd h' (lt_asymm h)
    have hle := List.Pairwise.forall_of_forall_of_flip (fun p _ h => absurd h (lt_irrefl p.1)) hforward
      hbackward
    intro a ha b hb
    obtain ⟨p, hp, rfl⟩ := hmem a ha
    obtain ⟨q, hq, rfl⟩ := hmem b hb
    by_contra hswapped
    have hswapped := Bool.eq_true_of_not_eq_false hswapped
    have hpq : p.1 < q.1 := String.lt_iff_toList_lt.mpr (Percent.lt_of_swapped hswapped)
    rcases Prod.Lex.toLex_le_toLex.mp (of_decide_eq_true (hle hp hq hpq)) with hlt | ⟨heq, -⟩
    · have hkept := (encoded_lt hpq).mp hlt
      rw [hkept] at hswapped
      cases hswapped
    · exact absurd (pyStr_of_percent heq) (ne_of_lt hpq)

end Order

/-- The parameters are normalized as the RFC says exactly if none of them has a name of the protocol, and
no escape stands against an unreserved character. -/
theorem normalization_rfc_iff (creds : Obj) (query : Option QueryParams) (nonce timestamp : String)
    {s : String} (h : normalizedParams creds (queryJson query) nonce timestamp = .ok s) :
    s = rfcNormalized (requestParams creds query nonce timestamp) ↔
      FreeOfOAuth query ∧ KeepsOrder ((queryItems query).map Prod.fst ++ oauthNames) :=
  ⟨keepsOrder_of_normalized h, fun hcond => normalized_of_keepsOrder h hcond.1 hcond.2⟩

theorem normalization_rfc_iff_page :
    let query : Option QueryParams := some ⟨[("limit", "5"), ("offset", "10")], by decide⟩
    let creds : Obj := [("consumer_key", "ck"), ("token_id", "t")]
    normalized (merge (queryObj query) [("oauth_consumer_key", "ck"), ("oauth_token", "t"),
        ("oauth_signature_method", "HMAC-SHA256"), ("oauth_timestamp", "1"), ("oauth_nonce", "nonce"),
        ("oauth_version", "1.0")]) = rfcNormalized (requestParams creds query "nonce" "1") ↔
      FreeOfOAuth query ∧ KeepsOrder ((queryItems query).map Prod.fst ++ oauthNames) :=
  normalization_rfc_iff [("consumer_key", "ck"), ("token_id", "t")] _ "nonce" "1" rfl

/-- `A` comes before `[`, and after `%5B`. -/
theorem normalization_swaps_bracket :
    ¬ ∀ (creds : Obj) (query : Option QueryParams) (nonce timestamp s : String),
      normalizedParams creds (queryJson query) nonce timestamp = .ok s →
        s = rfcNormalized (requestParams creds query nonce timestamp) := by
  intro h
  have heq := h [("consumer_key", "ck"), ("token_id", "t")] (some ⟨[("A", "1"), ("[", "2")], by decide⟩)
    "nonce" "1" _ rfl
  obtain ⟨-, horder⟩ := keepsOrder_of_normalized rfl heq
  exact absurd (horder "A" (by decide) "[" (by decide)) (by decide)

end OAuth1a

end CaviErp

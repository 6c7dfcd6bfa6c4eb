import CaviErp.Beacon.Isolation
import CaviErp.Beacon.Proofs.EscalationProofs
import CaviErp.Lib.Proofs.DoubleProofs
import CaviErp.Vault.Agent
import CaviErp.Lib.Percent

/-!
# Alerts of one tenant and failures of another

The store answers for an event by the cell of its key alone, so tenants whose events have different keys
do not notice each other. The key is the subject and the failure's name, and no part of it is the tenant:
failures without a name share one key, whosever they are.
-/

namespace CaviErp

open Py

/-! ## The shipped stores -/

/-- A store of cells: a key was seen where its cell says so, and is stamped where it was not. -/
def cellStore (cell : String → String) (seen : Nat → ℚ → ℚ → Bool) (stamp : Nat → ℚ → ℚ) :
    DedupStore (String → Option ℚ) where
  isDuplicate key window now s :=
    if (s (cell key)).any (seen window now) then (true, s)
    else (false, Function.update s (cell key) (some (stamp window now)))

/-- `InMemoryDedupStore` keeps the time of the last alert for each key. -/
theorem inMemoryDedupStore_eq : inMemoryDedupStore =
    cellStore id (fun window now last => Binary64.sub now last < window) (fun _ now => now) := by
  refine congrArg DedupStore.mk ?_
  funext key window now s
  have hset : (fun k => if k = key then some now else s k) = Function.update s key (some now) := by
    funext k
    rw [Function.update_apply]
  cases hs : s key with
  | none => simp [hs, hset]
  | some last =>
    by_cases hin : Binary64.sub now last < window
    · simp [hs, hin]
    · simp [hs, hin, hset]

/-- `RedisDedupStore` keeps the expiry of each key, under the prefixed name. -/
theorem redisDedupStore_eq (redisNamespace : String) : redisDedupStore redisNamespace =
    cellStore (fun key => redisNamespace ++ ":" ++ key) (fun _ now expires => now < expires)
      (fun window now => now + window) := by
  refine congrArg DedupStore.mk ?_
  funext key window now s
  have hset : (fun k => if k = redisNamespace ++ ":" ++ key then some (now + (window : ℚ)) else s k) =
      Function.update s (redisNamespace ++ ":" ++ key) (some (now + window)) := by
    funext k
    rw [Function.update_apply]
  cases hs : s (redisNamespace ++ ":" ++ key) with
  | none => simp [hs, hset]
  | some expires =>
    by_cases hin : now < expires
    · simp [hs, hin]
    · simp [hs, hin, hset]

def cellStore_cellwise {cell : String → String} (hcell : Function.Injective cell)
    (seen : Nat → ℚ → ℚ → Bool) (stamp : Nat → ℚ → ℚ) : (cellStore cell seen stamp).Cellwise where
  cell := cell
  cell_injective := hcell
  answer_eq key window now s t h := by
    unfold cellStore
    simp only [h]
    by_cases hseen : (t (cell key)).any (seen window now) = true
    · simp only [if_pos hseen, h, and_self]
    · simp only [if_neg hseen, Function.update_self, and_self]
  frame key window now s name h := by
    unfold cellStore
    by_cases hseen : (s (cell key)).any (seen window now) = true
    · simp only [if_pos hseen]
    · simp only [if_neg hseen, Function.update_of_ne h]

def inMemoryDedupStore_cellwise : inMemoryDedupStore.Cellwise :=
  inMemoryDedupStore_eq ▸ cellStore_cellwise Function.injective_id _ _

def redisDedupStore_cellwise (redisNamespace : String) : (redisDedupStore redisNamespace).Cellwise :=
  have hcell : Function.Injective fun key => redisNamespace ++ ":" ++ key := fun _ _ h =>
    (String.append_right_inj _).mp h
  redisDedupStore_eq redisNamespace ▸ cellStore_cellwise hcell _ _

namespace BeaconAgent

/-! ## Names of failures -/

theorem named_iff {payload : Obj} {name : String} :
    Named payload name ↔
      ∃ v, (identifiers.map payload.get).find? Json.truthy = some v ∧ v.pyStr = name := by
  constructor
  · rintro ⟨before, field, after, hlist, hbefore, htruthy, hname⟩
    refine ⟨payload.get field, ?_, hname⟩
    rw [hlist, List.map_append, List.map_cons, List.find?_eq_some_iff_append]
    refine ⟨htruthy, _, _, rfl, ?_⟩
    intro v hv
    obtain ⟨f, hf, rfl⟩ := List.mem_map.mp hv
    rw [hbefore f hf]
    rfl
  · rintro ⟨v, hfind, hname⟩
    obtain ⟨htruthy, vs, ws, hlist, hbefore⟩ := List.find?_eq_some_iff_append.mp hfind
    obtain ⟨before, rest, hfields, rfl, hrest⟩ := List.map_eq_append_iff.mp hlist
    obtain ⟨field, after, rfl, rfl, rfl⟩ := List.map_eq_cons_iff.mp hrest
    refine ⟨before, field, after, hfields, ?_, htruthy, hname⟩
    intro f hf
    have hfalse := hbefore _ (List.mem_map_of_mem hf)
    simpa using hfalse

/-- The identifier in the key is the failure's name, or empty where it has none. -/
theorem ident_cases (payload : Obj) :
    (Named payload (identOf payload).pyStr ∧ (identOf payload).pyStr ≠ "") ∨
      ((∀ name, ¬ Named payload name) ∧ (identOf payload).pyStr = "") := by
  have hident : identOf payload = ((identifiers.map payload.get).find? Json.truthy).getD "" := rfl
  cases hfind : (identifiers.map payload.get).find? Json.truthy with
  | some v =>
    rw [hident, hfind]
    exact .inl ⟨named_iff.mpr ⟨v, hfind, rfl⟩, pyStr_ne_empty (List.find?_some hfind)⟩
  | none =>
    rw [hident, hfind]
    refine .inr ⟨fun name hname => ?_, rfl⟩
    obtain ⟨v, hv, -⟩ := named_iff.mp hname
    rw [hfind] at hv
    cases hv

theorem Named.eq_ident {payload : Obj} {name : String} (h : Named payload name) :
    name = (identOf payload).pyStr := by
  obtain ⟨v, hfind, rfl⟩ := named_iff.mp h
  have hident : identOf payload = ((identifiers.map payload.get).find? Json.truthy).getD "" := rfl
  rw [hident, hfind]
  rfl

theorem distinguished_iff {p q : Obj} :
    Distinguished p q ↔ (identOf p).pyStr ≠ (identOf q).pyStr := by
  constructor
  · rintro ⟨name, ⟨hp, hq⟩ | ⟨hq, hp⟩⟩ heq
    · rcases ident_cases q with ⟨hnamed, -⟩ | ⟨-, hempty⟩
      · rw [← heq, ← hp.eq_ident] at hnamed
        exact hq hnamed
      · rcases ident_cases p with ⟨-, hne⟩ | ⟨hnone, -⟩
        · exact hne (heq.trans hempty)
        · exact hnone name hp
    · rcases ident_cases p with ⟨hnamed, -⟩ | ⟨-, hempty⟩
      · rw [heq, ← hq.eq_ident] at hnamed
        exact hp hnamed
      · rcases ident_cases q with ⟨-, hne⟩ | ⟨hnone, -⟩
        · exact hne (heq.symm.trans hempty)
        · exact hnone name hq
  · intro hne
    rcases ident_cases p with ⟨hp, -⟩ | ⟨-, hp⟩
    · exact ⟨_, .inl ⟨hp, fun hq => hne hq.eq_ident⟩⟩
    · rcases ident_cases q with ⟨hq, -⟩ | ⟨-, hq⟩
      · exact ⟨_, .inr ⟨hq, fun hp => hne hp.eq_ident.symm⟩⟩
      · exact absurd (hp.trans hq.symm) hne

/-! ## Keys -/

/-- The key under which the call's alert is deduplicated. -/
def Call.key (call : Call) : String := call.subject ++ ":" ++ (identOf call.payload).pyStr

theorem Call.classify_key {call : Call} {alert : Alert}
    (h : classify (.str call.subject) (.obj call.payload) call.correlationId = .ok alert) :
    alert.dedupKey = call.key := by
  unfold classify at h
  cases h
  rfl

/-- No subject has a colon, so the key tells subject and identifier. -/
theorem Call.key_inj {c c' : Call} (h : c.key = c'.key) :
    c.subject = c'.subject ∧ (identOf c.payload).pyStr = (identOf c'.payload).pyStr := by
  have hcolon : ∀ s ∈ subjects, ':' ∉ s.toList := by decide
  have hlist := congrArg String.toList h
  simp only [Call.key, String.toList_append, List.append_assoc] at hlist
  obtain ⟨hs, hi⟩ := Percent.sep_inj_left (hcolon _ c.subscribed) (hcolon _ c'.subscribed) hlist
  exact ⟨String.toList_inj.mp hs, String.toList_inj.mp hi⟩

theorem keysApart_iff {ofWrite : Json → Json} {calls : List Call} :
    KeysApart ofWrite calls ↔ ∀ c ∈ calls, ∀ c' ∈ calls, c.subject = c'.subject →
      Foreign ofWrite c.payload c'.payload → Distinguished c.payload c'.payload := by
  constructor
  · intro h c hc c' hc' hsubject hforeign
    rw [distinguished_iff]
    intro hident
    refine h c hc c' hc' hsubject hforeign _ _ rfl rfl ?_
    show c.subject ++ ":" ++ (identOf c.payload).pyStr = c'.subject ++ ":" ++ (identOf c'.payload).pyStr
    rw [hsubject, hident]
  · intro h c hc c' hc' hsubject hforeign alert alert' halert halert' hkey
    rw [Call.classify_key halert, Call.classify_key halert'] at hkey
    exact distinguished_iff.mp (h c hc c' hc' hsubject hforeign) (Call.key_inj hkey).2

/-! ## Runs -/

variable {cfg : Config (String → Option ℚ)}

theorem answer_eq (cfg : Config (String → Option ℚ)) {call : Call} {alert : Alert}
    (h : classify (.str call.subject) (.obj call.payload) call.correlationId = .ok alert)
    (w : World (String → Option ℚ)) :
    (answer cfg w call).1 =
        [if (cfg.dedup.isDuplicate call.key cfg.beacon.dedupWindow call.env.now w.self).1 then
          .suppressed alert else .alerted alert (cfg.beacon.targets alert.severity)] ∧
      (answer cfg w call).2.self =
        (cfg.dedup.isDuplicate call.key cfg.beacon.dedupWindow call.env.now w.self).2 := by
  unfold answer notify
  simp only [Action.bind_apply, Action.ofExcept_apply, h, isDuplicate_apply, Call.classify_key h]
  cases (cfg.dedup.isDuplicate call.key cfg.beacon.dedupWindow call.env.now w.self).1 with
  | true => simp [observe]
  | false => simp [observe]

/-- Where the events of others have other keys, a tenant's events are answered as if it were alone. -/
theorem outputs_alone (store : cfg.dedup.Cellwise) {ofWrite : Json → Json} {tenant : Json}
    {calls : List Call}
    (hkeys : ∀ c ∈ calls, ∀ c' ∈ calls, ownerOf ofWrite c.payload = tenant →
      ownerOf ofWrite c'.payload ≠ tenant → c.key ≠ c'.key) (w : World (String → Option ℚ)) :
    (Unwinding.outputs (answer cfg) w calls).filter (fun x => ownerOf ofWrite x.1.payload = tenant) =
      Unwinding.outputs (answer cfg) w (calls.filter fun c => ownerOf ofWrite c.payload = tenant) := by
  -- states are alike to the tenant that agree on the cells of its events
  let alike : World (String → Option ℚ) → World (String → Option ℚ) → Prop := fun v v' =>
    ∀ c ∈ calls, ownerOf ofWrite c.payload = tenant → v.self (store.cell c.key) = v'.self (store.cell c.key)
  refine Unwinding.outputs_filter (fun c : Call => decide (ownerOf ofWrite c.payload = tenant)) alike
    ?_ ?_ (fun _ _ _ => rfl)
  · intro call hcall hkeep v v' halike
    have howner := of_decide_eq_true hkeep
    obtain ⟨alert, halert⟩ : ∃ alert,
        classify (.str call.subject) (.obj call.payload) call.correlationId = .ok alert := ⟨_, rfl⟩
    obtain ⟨hout, hself⟩ := answer_eq cfg halert v
    obtain ⟨hout', hself'⟩ := answer_eq cfg halert v'
    obtain ⟨hanswer, hcell⟩ := store.answer_eq call.key cfg.beacon.dedupWindow call.env.now
      (halike call hcall howner)
    refine ⟨by rw [hout, hout', hanswer], fun c hc hc' => ?_⟩
    rw [hself, hself']
    by_cases heq : c.key = call.key
    · rw [heq, hcell]
    · have hne : store.cell c.key ≠ store.cell call.key := fun h => heq (store.cell_injective h)
      rw [store.frame _ _ _ _ _ hne, store.frame _ _ _ _ _ hne]
      exact halike c hc hc'
  · intro call hcall hdrop v v' halike c hc hc'
    have howner := of_decide_eq_false hdrop
    obtain ⟨alert, halert⟩ : ∃ alert,
        classify (.str call.subject) (.obj call.payload) call.correlationId = .ok alert := ⟨_, rfl⟩
    obtain ⟨-, hself⟩ := answer_eq cfg halert v
    have hne : store.cell c.key ≠ store.cell call.key := fun h =>
      hkeys c hc call hcall hc' howner (store.cell_injective h)
    rw [hself, store.frame _ _ _ _ _ hne]
    exact halike c hc hc'

theorem isolated_of_keysApart (store : cfg.dedup.Cellwise) {ofWrite : Json → Json} {calls : List Call}
    (h : KeysApart ofWrite calls) (w : World (String → Option ℚ)) : Isolated cfg ofWrite w calls := by
  intro tenant
  have hkeys : ∀ c ∈ calls, ∀ c' ∈ calls, ownerOf ofWrite c.payload = tenant →
      ownerOf ofWrite c'.payload ≠ tenant → c.key ≠ c'.key := by
    intro c hc c' hc' howner howner' heq
    have hforeign : Foreign ofWrite c.payload c'.payload :=
      .inl fun hsame => howner' (hsame.symm.trans howner)
    exact h c hc c' hc' (Call.key_inj heq).1 hforeign _ _ rfl rfl heq
  unfold alertsFor
  rw [outputs_alone store hkeys w, outputs_alone store ?_ w, List.filter_filter]
  · simp only [Bool.and_self]
  · intro c hc c' hc' howner howner'
    exact absurd (of_decide_eq_true (List.mem_filter.mp hc').2) howner'

/-- **Alerts are isolated exactly where failures have names.** In a run of calls on either shipped store,
at any times: every tenant is alerted as if there were no others, and no two events of different tenants
or writes on one subject share a key, if and only if of any two such events one names its failure by an
identifier that is not the other's. -/
theorem alerts_isolated_iff
    (hstore : cfg.dedup = inMemoryDedupStore ∨ ∃ ns, cfg.dedup = redisDedupStore ns)
    (ofWrite : Json → Json) (w : World (String → Option ℚ)) (calls : List Call) :
    Isolated cfg ofWrite w calls ∧ KeysApart ofWrite calls ↔
      ∀ c ∈ calls, ∀ c' ∈ calls, c.subject = c'.subject → Foreign ofWrite c.payload c'.payload →
        Distinguished c.payload c'.payload := by
  rw [← keysApart_iff]
  constructor
  · exact fun h => h.2
  · intro h
    refine ⟨?_, h⟩
    rcases hstore with hstore | ⟨ns, hstore⟩
    · exact isolated_of_keysApart (hstore ▸ inMemoryDedupStore_cellwise) h w
    · exact isolated_of_keysApart (hstore ▸ redisDedupStore_cellwise ns) h w

/-- An entry of the tenant that was quarantined. -/
def entryLetter (tenant entry : String) (now : ℚ) : Call where
  env := { now }
  subject := "deadletter.ledger.entry"
  payload := [("tenant_id", .str tenant), ("entry_id", .str entry)]
  subscribed := by decide
  concerns := .inl (by simp [Obj.get, Obj.get?])

/-- The condition holds for entries of two tenants. -/
theorem alerts_isolated_entries :
    let calls := [entryLetter "acme" "e-1" 0, entryLetter "globex" "e-2" 10]
    Isolated localConfig id localWorld calls ∧ KeysApart id calls := by
  have hnames : (identOf (entryLetter "acme" "e-1" 0).payload).pyStr ≠
      (identOf (entryLetter "globex" "e-2" 10).payload).pyStr := by decide
  refine (alerts_isolated_iff (.inl rfl) id localWorld _).mpr ?_
  intro c hc c' hc' _ hforeign
  rw [List.mem_pair] at hc hc'
  rw [distinguished_iff]
  rcases hc with rfl | rfl
  · rcases hc' with rfl | rfl
    · exact absurd hforeign (by simp [Foreign, entryLetter, Obj.get, Obj.get?])
    · exact hnames
  · rcases hc' with rfl | rfl
    · exact hnames.symm
    · exact absurd hforeign (by simp [Foreign, entryLetter, Obj.get, Obj.get?])

/-! ## Failures without a name -/

/-- Two failures of different tenants that have the same name, or none: the second is not reported where
it follows within the window. -/
theorem not_isolated_of_undistinguished (hstore : cfg.dedup = inMemoryDedupStore) (ofWrite : Json → Json)
    {c c' : Call} (hsubject : c.subject = c'.subject)
    (howner : ownerOf ofWrite c.payload ≠ ownerOf ofWrite c'.payload)
    (hnames : ¬ Distinguished c.payload c'.payload)
    (hwindow : Binary64.sub c'.env.now c.env.now < cfg.beacon.dedupWindow) {w : World (String → Option ℚ)}
    (hfresh : w.self = fun _ => none) : ¬ Isolated cfg ofWrite w [c, c'] := by
  intro hisolated
  have hkey : c.key = c'.key := by
    have hident := not_not.mp (mt distinguished_iff.mpr hnames)
    unfold Call.key
    rw [hsubject, hident]
  obtain ⟨alert, halert⟩ : ∃ alert, classify (.str c.subject) (.obj c.payload) c.correlationId =
    .ok alert := ⟨_, rfl⟩
  obtain ⟨alert', halert'⟩ : ∃ alert', classify (.str c'.subject) (.obj c'.payload) c'.correlationId =
    .ok alert' := ⟨_, rfl⟩
  obtain ⟨-, hself⟩ := answer_eq cfg halert w
  obtain ⟨hsecond, -⟩ := answer_eq cfg halert' (answer cfg w c).2
  obtain ⟨halone, -⟩ := answer_eq cfg halert' w
  rw [hself, hstore, ← hkey] at hsecond
  rw [hstore, hfresh] at halone
  -- after the first alert its key was seen, at the first call's time
  have hduplicate : (inMemoryDedupStore.isDuplicate c.key cfg.beacon.dedupWindow c'.env.now
      (inMemoryDedupStore.isDuplicate c.key cfg.beacon.dedupWindow c.env.now w.self).2).1 = true := by
    rw [hfresh]
    simp [inMemoryDedupStore, hwindow]
  rw [if_pos hduplicate] at hsecond
  have hnew : (inMemoryDedupStore.isDuplicate c'.key cfg.beacon.dedupWindow c'.env.now
      fun _ => none).1 = false := rfl
  rw [hnew, if_neg Bool.false_ne_true] at halone
  have hboth := hisolated (ownerOf ofWrite c'.payload)
  unfold alertsFor at hboth
  rw [Unwinding.outputs_cons, Unwinding.outputs_cons, Unwinding.outputs_nil, hsecond] at hboth
  simp [howner, Unwinding.outputs_cons, halone, dispatched] at hboth

/-- A denial as Vault publishes it: it names no entry, work order or run. -/
def denial (tenant reason : String) (now : ℚ) : Call where
  env := { now }
  subject := "vault.secret.denied"
  payload := VaultAgent.deniedPayload tenant "netsuite" reason "2026-01-01T00:00:00+00:00"
  subscribed := by decide
  concerns := .inl (by simp [Obj.get, Obj.get?, VaultAgent.deniedPayload])

/-- One tenant's denial hides the other's. -/
theorem denial_hides_denial :
    let calls := [denial "acme" "no netsuite credentials stored for tenant 'acme'" 0,
      denial "globex" "no netsuite credentials stored for tenant 'globex'" 10]
    ¬ Isolated localConfig id localWorld calls ∧ ¬ KeysApart id calls := by
  have howner : ∀ reason reason' now now', ownerOf id (denial "acme" reason now).payload ≠
      ownerOf id (denial "globex" reason' now').payload := by
    intro reason reason' now now'
    simp [ownerOf, denial, Obj.get, Obj.get?, VaultAgent.deniedPayload]
  have hnames : ∀ reason reason' now now', ¬ Distinguished (denial "acme" reason now).payload
      (denial "globex" reason' now').payload := fun _ _ _ _ h => distinguished_iff.mp h rfl
  refine ⟨?_, fun h => ?_⟩
  · refine not_isolated_of_undistinguished ?_ id ?_ ?_ ?_ ?_ ?_
    · rfl
    · rfl
    · exact howner _ _ _ _
    · exact hnames _ _ _ _
    · show Binary64.sub 10 0 < ((300 : Nat) : ℚ)
      have hdouble : Binary64.IsDouble ((10 : Int) : ℚ) := Binary64.isDouble_intCast (by norm_num)
      rw [Binary64.sub_of_isDouble (by rwa [sub_zero])]
      norm_num
    · rfl
  · exact hnames _ _ _ _ (keysApart_iff.mp h _ List.mem_cons_self _
      (List.mem_cons_of_mem _ List.mem_cons_self) rfl (.inl (howner _ _ _ _)))

end BeaconAgent

end CaviErp

import CaviErp.Forge.Isolation
import CaviErp.Forge.Proofs.CongruenceProofs
import CaviErp.Forge.Proofs.DisciplineProofs

/-!
# The tenants do not see each other

The run with the other tenants and the run without them go in step: a call that stays finds worlds that it
cannot tell apart, and a call that is deleted leaves the tenant's part of the world as it was.
-/

namespace CaviErp

open Py

namespace ForgeWriteAgent

variable {cfg : Config} {env : Env} {event : Event} {tenant : Json} {ids : List String}

/-! ## Whose write it is -/

theorem sameTenant_iff {tenantId : Json} :
    sameTenant tenant tenantId = true ↔ tenantId.dictKey = tenant.dictKey := by
  simp [sameTenant]

theorem dictKey_of_breakerKey {op : WriteOperation} {key : Json × Json} (h : breakerKey op = .ok key) :
    op.tenantId.dictKey = some key.1 := by
  unfold breakerKey at h
  split at h
  · rename_i t p ht hp
    obtain rfl := Except.ok.inj h
    exact ht
  · cases h

theorem ofAnother_of_tenantOf {payload tenantId : Json} (h : tenantOf payload = some tenantId) :
    ofAnother tenant payload = !sameTenant tenant tenantId := by
  rw [ofAnother, h]

theorem tenantOf_of_item {payload tenantId : Json} (h : item payload "tenant_id" = .ok tenantId) :
    tenantOf payload = some tenantId := by
  rw [tenantOf, h]

/-- The events of a write name its tenant. -/
theorem concerns_obsOf {step : WriteStep}
    (h : tenantOf (.obj step.event) = some step.op.tenantId) :
    (obsOf env event step).concerns tenant = sameTenant tenant step.op.tenantId := by
  show (tenantOf (.obj step.event)).any (sameTenant tenant) = _
  rw [h]
  rfl

/-- A proposal is for the tenant that its event names, a reversal for that of the original. -/
theorem Proposes.names_tenant {self : ForgeWriteAgent} {op : WriteOperation}
    (h : Proposes env event self op) :
    (event.subject = "forge.write.propose" ∧ item event.payload "tenant_id" = .ok op.tenantId) ∨
      (event.subject = "forge.write.reverse" ∧ ∃ writeId original,
        item event.payload "write_id" = .ok (.str writeId) ∧ self.completed writeId = some original ∧
          op.tenantId = original.tenantId) := by
  cases h with
  | proposal hsub hr hop =>
    refine .inl ⟨hsub, ?_⟩
    have htenant : op.tenantId = _ := (request_carries hop).2.1
    rw [htenant]
    exact (WriteRequest.ofKwargs_items hr).1
  | reversal hsub hid horiginal _ _ _ _ hop =>
    exact .inr ⟨hsub, _, _, hid, horiginal, requestReversal_tenant hop⟩

/-! ## Every write is requested once -/

theorem Lawful.requested_once {steps : List Step} (h : Lawful steps) : steps.count .requested ≤ 1 := by
  rcases h with h | ⟨n, h⟩
  · exact (h.sublist.count_le _).trans (by decide)
  · refine (h.sublist.count_le _).trans ?_
    simp [attempts, List.count_replicate]

theorem requested_unique {trace : List Obs} {writeId : String} {e e' : Event}
    (hlawful : Lawful (stepsOf writeId trace)) (h : .emitted writeId e ∈ trace)
    (h' : .emitted writeId e' ∈ trace) (hsub : e.subject = "forge.write.requested")
    (hsub' : e'.subject = "forge.write.requested") : e = e' := by
  have hstep : ∀ {e : Event}, e.subject = "forge.write.requested" →
      (Obs.emitted writeId e).step? writeId = some .requested := by
    intro e hsub
    simp [Obs.step?, stageOf, hsub]
  have honce := hlawful.requested_once
  obtain ⟨before, after, rfl⟩ := List.append_of_mem h
  rw [stepsOf, List.filterMap_append, List.filterMap_cons_some (hstep hsub), List.count_append,
    List.count_cons_self] at honce
  -- another request would be before or after this one
  have hnone : ∀ part : List Obs, (part.filterMap (Obs.step? writeId)).count .requested = 0 →
      .emitted writeId e' ∉ part := by
    intro part hzero hmem
    rw [List.count_eq_zero] at hzero
    exact hzero (List.mem_filterMap.mpr ⟨_, hmem, hstep hsub'⟩)
  rcases List.mem_append.mp h' with hbefore | hafter
  · exact absurd hbefore (hnone before (by omega))
  · rcases List.mem_cons.mp hafter with heq | hafter
    · exact ((Obs.emitted.inj heq).2).symm
    · exact absurd hafter (hnone after (by omega))

/-! ## The trace only grows -/

theorem handle_grows (cfg : Config) (env : Env) (event : Event) (w : World) :
    w.trace <+: (handle cfg env event w).2.trace := by
  obtain ⟨seen, htrace, -⟩ := handle_steps cfg env event (.null, .null) w
  exact ⟨seen, htrace.symm⟩

theorem served_grows (cfg : Config) {pre calls : List (Env × Event)} (h : pre <+: calls) :
    (served cfg pre).trace <+: (served cfg calls).trace := by
  obtain ⟨rest, rfl⟩ := h
  unfold served
  rw [Action.serve_append]
  refine Action.serve_induct (I := fun w : World => _ <+: w.trace) ?_ rest _ (List.prefix_refl _)
  intro c w hw
  exact hw.trans (handle_grows cfg c.1 c.2 w)

/-- The ids are those of the writes that the trace shows to be requested for others. -/
def Tells (tenant : Json) (ids : List String) (trace : List Obs) : Prop :=
  ∀ (writeId : String) (event : Event), .emitted writeId event ∈ trace →
    event.subject = "forge.write.requested" → (writeId ∈ ids ↔ ofAnother tenant event.payload = true)

theorem Tells.mono {trace trace' : List Obs} (h : Tells tenant ids trace') (hle : trace <+: trace') :
    Tells tenant ids trace :=
  fun writeId event hmem hsub => h writeId event (hle.subset hmem) hsub

theorem tells_othersIds {calls : List (Env × Event)} (hids : (newIds calls).Nodup)
    (hrun : (handleAll cfg calls { self := {} }).1 = .ok ()) :
    Tells tenant (othersIds cfg tenant calls) (served cfg calls).trace := by
  intro writeId event hmem hsub
  have hlawful := handleAll_lawful cfg calls hids writeId
  have hworld : (handleAll cfg calls { self := {} }).2 = served cfg calls :=
    Action.serve_of_forEach_ok hrun
  rw [hworld] at hlawful
  constructor
  · intro hother
    obtain ⟨o, ho, hid⟩ := List.mem_filterMap.mp hother
    cases o with
    | applied op outcome => cases hid
    | emitted writeId' event' =>
      rw [othersId?] at hid
      split at hid
      · rename_i hcond
        obtain rfl := Option.some.inj hid
        obtain rfl := requested_unique hlawful hmem ho hsub hcond.1
        exact hcond.2
      · cases hid
  · intro hother
    refine List.mem_filterMap.mpr ⟨_, hmem, ?_⟩
    rw [othersId?, if_pos ⟨hsub, hother⟩]

/-! ## The ids tell whose a write is -/

/-- The writes of others are those with one of the ids. -/
structure Sorted (tenant : Json) (ids : List String) (v : View) : Prop where
  pending : ∀ writeId op, v.pending writeId = some op →
    (writeId ∈ ids ↔ sameTenant tenant op.tenantId = false)
  completed : ∀ writeId op, v.completed writeId = some op →
    (writeId ∈ ids ↔ sameTenant tenant op.tenantId = false)

namespace Sorted

variable {v v' : View} {op : WriteOperation}

theorem put (h : Sorted tenant ids v) {writeId : String}
    (hop : writeId ∈ ids ↔ sameTenant tenant op.tenantId = false) :
    Sorted tenant ids (v.put writeId op) := by
  refine ⟨?_, h.completed⟩
  intro id op' hop'
  rcases update_eq_some hop' with ⟨rfl, hsome⟩ | ⟨-, hold⟩
  · obtain rfl := Option.some.inj hsome
    exact hop
  · exact h.pending id op' hold

theorem pop (h : Sorted tenant ids v) (writeId : String) : Sorted tenant ids (v.pop writeId) := by
  refine ⟨?_, h.completed⟩
  intro id op hop
  rcases update_eq_some hop with ⟨-, hnone⟩ | ⟨-, hold⟩
  · cases hnone
  · exact h.pending id op hold

theorem finish (h : Sorted tenant ids v) {writeId : String}
    (hop : writeId ∈ ids ↔ sameTenant tenant op.tenantId = false) :
    Sorted tenant ids (v.finish writeId op) := by
  refine ⟨(h.pop writeId).pending, ?_⟩
  intro id op' hop'
  rcases update_eq_some hop' with ⟨rfl, hsome⟩ | ⟨-, hold⟩
  · obtain rfl := Option.some.inj hsome
    exact hop
  · exact h.completed id op' hold

theorem tell (h : Sorted tenant ids v) (obs : Obs) : Sorted tenant ids (v.tell obs) :=
  ⟨h.pending, h.completed⟩

theorem executed (h : Sorted tenant ids v) {ok : Bool} (hex : Executed cfg env event op v ok v')
    (hop : op.writeId ∈ ids ↔ sameTenant tenant op.tenantId = false) : Sorted tenant ids v' := by
  cases hex with
  | refused => exact h
  | failed _ => exact h.tell _
  | unannounced _ _ => exact (h.tell _).finish hop
  | completed _ _ =>
    refine Sorted.tell ?_ _
    exact (h.tell _).finish hop

/-- A call that returns announces each write that it makes pending. -/
theorem handled (h : Sorted tenant ids v) (hkeyed : Keyed v) {ok : Bool} (hok : ok = true)
    (hh : Handled cfg env event v ok v') (htells : Tells tenant ids v'.trace) :
    Sorted tenant ids v' := by
  cases hh with
  | idle => exact h
  | unannounced _ _ => cases hok
  | proposed hid hstate hv =>
    rename_i op
    refine (h.put ?_).tell _
    have htold := htells op.writeId _ (List.mem_append_right _ List.mem_cons_self) rfl
    rw [ofAnother_of_tenantOf (tenantOf_of_item (show item _ "tenant_id" = .ok op.tenantId from rfl))]
      at htold
    rw [htold]
    simp
  | retried hop hstate hex =>
    rename_i writeId op
    obtain rfl : op.writeId = writeId := (hkeyed.pending _ _ hop).1
    exact h.executed hex (h.pending _ _ hop)
  | unapproved _ _ => cases hok
  | approved hnames hop hstate hv hex =>
    rename_i writeId op reviewer
    obtain rfl : op.writeId = writeId := (hkeyed.pending _ _ hop).1
    have hid := h.pending _ _ hop
    have hput : Sorted tenant ids (v.put op.writeId { op with state := .approved }) := h.put hid
    exact (hput.tell _).executed hex hid
  | unrejected _ _ => cases hok
  | rejected _ _ _ _ => exact (h.pop _).tell _

end Sorted

/-! ## A call that stays -/

/-- The attributes agree as far as the tenant is concerned. -/
structure Alike (tenant : Json) (ids : List String) (s t : ForgeWriteAgent) : Prop where
  pending : ∀ writeId, writeId ∉ ids → s.pending writeId = t.pending writeId
  completed : ∀ writeId, writeId ∉ ids → s.completed writeId = t.completed writeId
  owned : ∀ writeId op, writeId ∉ ids → s.pending writeId = some op ∨ s.completed writeId = some op →
    sameTenant tenant op.tenantId = true
  breakers : ∀ key : Json × Json, tenant.dictKey = some key.1 → s.breakers key = t.breakers key

/-- The worlds `w` and `v` are alike, and the same was added since `w₀` and `v₀`. -/
structure InStep (tenant : Json) (ids : List String) (w₀ v₀ w v : World) : Prop where
  alike : Alike tenant ids w.self v.self
  grown : ∃ seen sent, w.trace = w₀.trace ++ seen ∧ v.trace = v₀.trace ++ seen ∧
    w.bus = w₀.bus ++ sent ∧ v.bus = v₀.bus ++ sent

theorem InStep.seen {w₀ v₀ w v : World} (h : InStep tenant ids w₀ v₀ w v) (obs : Obs) :
    InStep tenant ids w₀ v₀ { w with trace := w.trace ++ [obs] }
      { v with trace := v.trace ++ [obs] } := by
  obtain ⟨seen, sent, hw, hv, hwbus, hvbus⟩ := h.grown
  exact ⟨h.alike, seen ++ [obs], sent, by simp [hw], by simp [hv], hwbus, hvbus⟩

theorem InStep.sent {w₀ v₀ w v : World} (h : InStep tenant ids w₀ v₀ w v) (message : String × String) :
    InStep tenant ids w₀ v₀ { w with bus := w.bus ++ [message] } { v with bus := v.bus ++ [message] } := by
  obtain ⟨seen, sent, hw, hv, hwbus, hvbus⟩ := h.grown
  exact ⟨h.alike, seen, sent ++ [message], hw, hv, by simp [hwbus], by simp [hvbus]⟩

theorem Alike.update {s t : ForgeWriteAgent} (h : Alike tenant ids s t) (writeId : String)
    {x : Option WriteOperation} (hx : ∀ op, x = some op → sameTenant tenant op.tenantId = true) :
    Alike tenant ids { s with pending := Function.update s.pending writeId x }
        { t with pending := Function.update t.pending writeId x } ∧
      Alike tenant ids { s with completed := Function.update s.completed writeId x }
        { t with completed := Function.update t.completed writeId x } := by
  have hsame : ∀ {d d' : String → Option WriteOperation}, (∀ id, id ∉ ids → d id = d' id) →
      ∀ id, id ∉ ids → Function.update d writeId x id = Function.update d' writeId x id := by
    intro d d' hd id hid
    by_cases heq : id = writeId
    · simp [heq]
    · simp [heq, hd id hid]
  refine ⟨⟨hsame h.pending, h.completed, ?_, h.breakers⟩, ⟨h.pending, hsame h.completed, ?_, h.breakers⟩⟩
  · rintro id op hid (hop | hop)
    · rcases update_eq_some hop with ⟨-, hsome⟩ | ⟨-, hold⟩
      · exact hx op hsome
      · exact h.owned id op hid (.inl hold)
    · exact h.owned id op hid (.inr hop)
  · rintro id op hid (hop | hop)
    · exact h.owned id op hid (.inl hop)
    · rcases update_eq_some hop with ⟨-, hsome⟩ | ⟨-, hold⟩
      · exact hx op hsome
      · exact h.owned id op hid (.inr hold)

theorem inStep_congruence (tenant : Json) (ids : List String) (w₀ v₀ : World) :
    Congruence (InStep tenant ids w₀ v₀) (fun id => sameTenant tenant id = true) (fun id => id ∉ ids) where
  indifferent := {
    recorded := fun _ note _ h => ⟨(h.seen note).alike, (h.seen note).grown⟩
    published := fun _ _ h => h.sent _
    quarantined := fun _ h => ⟨h.alike, h.grown⟩ }
  pending h hid := h.alike.pending _ hid
  completed h hid := h.alike.completed _ hid
  owned h hid hop := h.alike.owned _ _ hid hop
  breakers h hown hkey := by
    refine h.alike.breakers _ ?_
    rw [← sameTenant_iff.mp hown]
    exact dictKey_of_breakerKey hkey
  pended {_ _ op} writeId hown h := by
    refine ⟨(h.alike.update writeId ?_).1, h.grown⟩
    rintro op' hop
    obtain rfl := Option.some.inj hop
    exact hown
  unpended writeId h := ⟨(h.alike.update writeId fun _ hop => by cases hop).1, h.grown⟩
  finished {_ _ op} writeId hown h := by
    refine ⟨(h.alike.update writeId ?_).2, h.grown⟩
    rintro op' hop
    obtain rfl := Option.some.inj hop
    exact hown
  withBreaker key b h := by
    refine ⟨⟨h.alike.pending, h.alike.completed, h.alike.owned, ?_⟩, h.grown⟩
    intro k hk
    by_cases heq : k = key
    · simp [withBreaker, heq]
    · simp [withBreaker, heq, h.alike.breakers k hk]
  applied _ _ h := h.seen _

/-- A call that stays has one outcome in both runs, and adds the same to both. -/
theorem kept_inStep (hkept : aboutOthers tenant ids event = false) {w v : World}
    (h : Alike tenant ids w.self v.self) :
    (handle cfg env event w).1 = (handle cfg env event v).1 ∧
      InStep tenant ids w v (handle cfg env event w).2 (handle cfg env event v).2 := by
  refine (inStep_congruence tenant ids w v).handle_respects cfg env event ?_ ?_ w v
    ⟨h, [], [], by simp, by simp, by simp, by simp⟩
  · intro hsub tenantId htenantId
    rw [aboutOthers, if_pos hsub, ofAnother_of_tenantOf (tenantOf_of_item htenantId)] at hkept
    simpa using hkept
  · intro hsub writeId hwriteId hmem
    have hpropose : ¬ event.subject = "forge.write.propose" := by
      rcases hsub with hsub | hsub
      · rw [hsub]
        decide
      · rw [hsub]
        decide
    rw [aboutOthers, if_neg hpropose, if_pos hsub, hwriteId] at hkept
    simp [hmem] at hkept

/-! ## A call that is deleted -/

/-- Nothing changed for the tenant. -/
structure Aside (tenant : Json) (ids : List String) (v v' : View) : Prop where
  pending : ∀ writeId, writeId ∉ ids → v'.pending writeId = v.pending writeId
  completed : ∀ writeId, writeId ∉ ids → v'.completed writeId = v.completed writeId
  seen : v'.trace.filter (Obs.concerns tenant) = v.trace.filter (Obs.concerns tenant)

namespace Aside

variable {v v' v'' : View}

theorem refl (tenant : Json) (ids : List String) (v : View) : Aside tenant ids v v :=
  ⟨fun _ _ => rfl, fun _ _ => rfl, rfl⟩

theorem trans (h : Aside tenant ids v v') (h' : Aside tenant ids v' v'') : Aside tenant ids v v'' :=
  ⟨fun id hid => (h'.pending id hid).trans (h.pending id hid),
    fun id hid => (h'.completed id hid).trans (h.completed id hid), h'.seen.trans h.seen⟩

theorem put {writeId : String} (hid : writeId ∈ ids) (v : View) (op : WriteOperation) :
    Aside tenant ids v (v.put writeId op) := by
  refine ⟨fun id hnot => ?_, fun _ _ => rfl, rfl⟩
  have hne : id ≠ writeId := fun heq => hnot (heq ▸ hid)
  simp [View.put, hne]

theorem pop {writeId : String} (hid : writeId ∈ ids) (v : View) :
    Aside tenant ids v (v.pop writeId) := by
  refine ⟨fun id hnot => ?_, fun _ _ => rfl, rfl⟩
  have hne : id ≠ writeId := fun heq => hnot (heq ▸ hid)
  simp [View.pop, hne]

theorem finish {writeId : String} (hid : writeId ∈ ids) (v : View) (op : WriteOperation) :
    Aside tenant ids v (v.finish writeId op) := by
  refine ⟨fun id hnot => ?_, fun id hnot => ?_, rfl⟩
  · have hne : id ≠ writeId := fun heq => hnot (heq ▸ hid)
    simp [View.finish, hne]
  · have hne : id ≠ writeId := fun heq => hnot (heq ▸ hid)
    simp [View.finish, hne]

theorem tell {obs : Obs} (h : obs.concerns tenant = false) (v : View) :
    Aside tenant ids v (v.tell obs) :=
  ⟨fun _ _ => rfl, fun _ _ => rfl, by simp [View.tell, h]⟩

theorem apply {op : WriteOperation} (hother : sameTenant tenant op.tenantId = false)
    (outcome : Except String Obj) (v : View) : Aside tenant ids v (v.tell (.applied op outcome)) :=
  tell (show Obs.concerns tenant (.applied op outcome) = false from hother) v

/-- An event of another tenant's write. -/
theorem announce (step : WriteStep) (h : tenantOf (.obj step.event) = some step.op.tenantId)
    (hother : sameTenant tenant step.op.tenantId = false) (v : View) :
    Aside tenant ids v (v.tell (obsOf env event step)) :=
  tell (by rw [concerns_obsOf h, hother]) v

theorem executed {op : WriteOperation} {ok : Bool} (hex : Executed cfg env event op v ok v')
    (hid : op.writeId ∈ ids) (hother : sameTenant tenant op.tenantId = false) :
    Aside tenant ids v v' := by
  cases hex with
  | refused => exact refl tenant ids v
  | failed _ => exact apply hother _ v
  | unannounced _ _ => exact (apply hother _ v).trans (finish hid _ _)
  | completed hw hv =>
    rename_i confirmation
    refine trans ?_ (announce (completedStep env.coordinator op confirmation) rfl hother _)
    exact (apply hother _ v).trans (finish hid _ _)

end Aside

/-- An execution changes no breaker but that of its write. -/
theorem execute_breakers {op : WriteOperation} {key : Json × Json} (hstate : op.state = .approved)
    (hne : breakerKey op ≠ .ok key) (correlationId : Json) (w : World) :
    (execute cfg env op event correlationId w).2.self.breakers key = w.self.breakers key := by
  have hkeys : ∀ {key'}, breakerKey op = .ok key' → key ≠ key' := by
    rintro key' hkey rfl
    exact hne hkey
  have hcourse := execute_course cfg env event hstate correlationId w
  generalize execute cfg env op event correlationId w = r at hcourse
  cases hcourse with
  | unkeyed hkey => rfl
  | refused hkey hcheck =>
    rw [(deadLetter_silent _ _ _ _ _).breakers]
    simp [withBreaker, hkeys hkey]
  | failed hkey hcheck hw =>
    rw [onWriteFailed_eq]
    split
    · rw [(deadLetter_silent _ _ _ _ _).breakers]
      simp [withBreaker, appliedWorld, hkeys hkey]
    · simp [withBreaker, appliedWorld, hkeys hkey]
  | written hkey hcheck hw =>
    refine (congrFun (emit_silent cfg env _ _ _).breakers key).trans ?_
    simp [withBreaker, appliedWorld, hkeys hkey]

theorem announceAndExecute_breakers {op : WriteOperation} {key : Json × Json}
    (hne : breakerKey op ≠ .ok key) (reviewer : Json) (w : World) :
    (announceAndExecute cfg env event op reviewer w).2.self.breakers key = w.self.breakers key := by
  have hemit := (emit_silent cfg env (approvedStep env.coordinator op reviewer) event.correlationId
    w).breakers
  rcases announceAndExecute_cases cfg env event op reviewer w with ⟨e, -, hr⟩ | ⟨-, hr⟩
  · rw [hr]
    exact congrFun hemit key
  · have hstate : ({ op with state := .approved } : WriteOperation).state = .approved := rfl
    rw [hr]
    exact (execute_breakers hstate hne _ _).trans (congrFun hemit key)

/-- The write of another tenant has another breaker. -/
theorem breakerKey_ne {op : WriteOperation} {key : Json × Json}
    (hother : sameTenant tenant op.tenantId = false) (hkey : tenant.dictKey = some key.1) :
    breakerKey op ≠ .ok key := by
  intro h
  have hsame : sameTenant tenant op.tenantId = true := by
    rw [sameTenant_iff, dictKey_of_breakerKey h, hkey]
  rw [hother] at hsame
  cases hsame

/-- A proposal of another tenant that was announced is about one of the ids. -/
theorem proposed_aside {op : WriteOperation} {w : World}
    (hother : sameTenant tenant op.tenantId = false)
    (hok : (emit cfg env (requestedStep env.coordinator op) event.correlationId
      (pended op.writeId op w)).1 = .ok ())
    (htells : Tells tenant ids (emit cfg env (requestedStep env.coordinator op) event.correlationId
      (pended op.writeId op w)).2.trace) :
    Aside tenant ids (view w) (view (emit cfg env (requestedStep env.coordinator op)
      event.correlationId (pended op.writeId op w)).2) := by
  have hnames : tenantOf (.obj (requestedStep env.coordinator op).event) = some op.tenantId := rfl
  rcases emit_view cfg env event (requestedStep env.coordinator op) (pended op.writeId op w) with
    ⟨hraised, -, -⟩ | ⟨-, hview⟩
  · rw [hok] at hraised
    cases hraised
  · have hmem : obsOf env event (requestedStep env.coordinator op) ∈ (view (emit cfg env
        (requestedStep env.coordinator op) event.correlationId (pended op.writeId op w)).2).trace := by
      rw [hview]
      exact List.mem_append_right _ List.mem_cons_self
    have htold := htells op.writeId _ hmem rfl
    have hid : op.writeId ∈ ids := by
      rw [htold]
      exact (ofAnother_of_tenantOf hnames).trans (by rw [hother]; rfl)
    rw [hview]
    exact (Aside.put hid (view w) op).trans (.announce _ hnames hother _)

/-- A call about others that returns leaves the tenant's part of the world as it was. -/
theorem deleted_aside (habout : aboutOthers tenant ids event = true) {w : World}
    (hsorted : Sorted tenant ids (view w)) (hkeyed : Keyed (view w))
    (hok : (handle cfg env event w).1 = .ok ())
    (htells : Tells tenant ids (handle cfg env event w).2.trace) :
    Aside tenant ids (view w) (view (handle cfg env event w).2) ∧
      ∀ key : Json × Json, tenant.dictKey = some key.1 →
        (handle cfg env event w).2.self.breakers key = w.self.breakers key := by
  -- a write that the event names is one of another tenant
  have hnamed : ∀ writeId, item event.payload "write_id" = .ok (.str writeId) →
      event.subject = "forge.write.decision" ∨ event.subject = "forge.write.reverse" →
        writeId ∈ ids := by
    intro writeId hid hsub
    have hpropose : ¬ event.subject = "forge.write.propose" := by
      rcases hsub with hsub | hsub
      · rw [hsub]
        decide
      · rw [hsub]
        decide
    rw [aboutOthers, if_neg hpropose, if_pos hsub, hid] at habout
    simpa using habout
  have hcourse := handle_course cfg env event w
  generalize handle cfg env event w = r at hcourse hok htells ⊢
  cases hcourse with
  | idle r => exact ⟨.refl tenant ids _, fun _ _ => rfl⟩
  | quarantined error =>
    refine ⟨?_, fun key _ => congrFun (deadLetter_silent _ _ _ _ _).breakers key⟩
    rw [deadLetter_view]
    exact .refl tenant ids _
  | proposed hp =>
    rename_i op
    have hother : sameTenant tenant op.tenantId = false := by
      rcases hp.names_tenant with ⟨hsub, htenant⟩ | ⟨hsub, writeId, original, hid, horiginal, htenant⟩
      · rw [aboutOthers, if_pos hsub, ofAnother_of_tenantOf (tenantOf_of_item htenant)] at habout
        simpa using habout
      · rw [htenant]
        exact (hsorted.completed _ _ horiginal).mp (hnamed _ hid (.inr hsub))
    exact ⟨proposed_aside hother hok htells,
      fun key _ => congrFun (emit_silent _ _ _ _ _).breakers key⟩
  | retried happroval hop hstate =>
    rename_i writeId op
    obtain rfl : op.writeId = writeId := (hkeyed.pending _ _ hop).1
    have hid := hnamed _ happroval.names.2 (.inl happroval.names.1)
    have hother := (hsorted.pending _ _ hop).mp hid
    exact ⟨.executed (execute_spec cfg env event hstate w) hid hother,
      fun key hkey => execute_breakers hstate (breakerKey_ne hother hkey) _ w⟩
  | approved happroval hreviewer hop hstate =>
    rename_i writeId op reviewer
    obtain rfl : op.writeId = writeId := (hkeyed.pending _ _ hop).1
    have hid := hnamed _ happroval.names.2 (.inl happroval.names.1)
    have hother := (hsorted.pending _ _ hop).mp hid
    refine ⟨?_, fun key hkey => announceAndExecute_breakers (breakerKey_ne hother hkey) _ _⟩
    have hput : Aside tenant ids (view w) ((view w).put op.writeId { op with state := .approved }) :=
      .put hid _ _
    rcases announceAndExecute_executed cfg env event op.writeId op reviewer w with
      ⟨-, hview⟩ | ⟨-, hex⟩
    · rw [hview]
      exact hput
    · refine (hput.trans ?_).trans (.executed hex hid hother)
      exact Aside.announce (approvedStep env.coordinator op reviewer) rfl hother _
  | rejected hrefusal hop hstate =>
    rename_i writeId op reviewer reason
    have hid := hnamed _ hrefusal.names.2 (.inl hrefusal.names.1)
    have hother := (hsorted.pending _ _ hop).mp hid
    refine ⟨?_, fun key _ => congrFun (emit_silent _ _ _ _ _).breakers key⟩
    rcases emit_view cfg env event (rejectedStep env.coordinator op reviewer reason)
      (unpended writeId w) with ⟨-, -, hview⟩ | ⟨-, hview⟩
    · rw [hview]
      exact .pop hid _
    · rw [hview]
      refine (Aside.pop hid (view w)).trans ?_
      exact Aside.announce (rejectedStep env.coordinator op reviewer reason) rfl hother _

/-! ## Runs -/

theorem effectsFrom_append (cfg : Config) (w : World) (calls more : List (Env × Event)) :
    effectsFrom cfg w (calls ++ more) = effectsFrom cfg w calls ++
      effectsFrom cfg (Action.serve (fun c => handle cfg c.1 c.2) w calls) more := by
  induction calls generalizing w with
  | nil => rfl
  | cons c calls ih =>
    rw [List.cons_append, effectsFrom, effectsFrom, ih]
    rfl

theorem effects_snoc (cfg : Config) (calls : List (Env × Event)) (c : Env × Event) :
    effects cfg (calls ++ [c]) = effects cfg calls ++ [effectOf cfg c (served cfg calls)] :=
  effectsFrom_append cfg _ calls [c]

theorem withoutOthers_kept {c : Env × Event} (h : aboutOthers tenant ids c.2 = false)
    (calls : List (Env × Event)) :
    withoutOthers tenant ids (calls ++ [c]) = withoutOthers tenant ids calls ++ [c] := by
  simp [withoutOthers, h]

theorem withoutOthers_deleted {c : Env × Event} (h : aboutOthers tenant ids c.2 = true)
    (calls : List (Env × Event)) :
    withoutOthers tenant ids (calls ++ [c]) = withoutOthers tenant ids calls := by
  simp [withoutOthers, h]

/-- The run so far and the run without the others so far. -/
structure Parallel (cfg : Config) (tenant : Json) (ids : List String) (pre : List (Env × Event)) :
    Prop where
  sorted : Sorted tenant ids (view (served cfg pre))
  alike : Alike tenant ids (served cfg pre).self (served cfg (withoutOthers tenant ids pre)).self
  seen : (served cfg (withoutOthers tenant ids pre)).trace.filter (Obs.concerns tenant) =
    (served cfg pre).trace.filter (Obs.concerns tenant)
  returns : Action.Along (fun c => handle cfg c.1 c.2) (fun c w => (handle cfg c.1 c.2 w).1 = .ok ())
    { self := {} } (withoutOthers tenant ids pre)
  effects : effects cfg (withoutOthers tenant ids pre) =
    (effects cfg pre).filter fun e => !aboutOthers tenant ids e.cause

namespace Parallel

variable {pre : List (Env × Event)} {c : Env × Event}

theorem nil (cfg : Config) (tenant : Json) (ids : List String) : Parallel cfg tenant ids [] := by
  refine ⟨⟨?_, ?_⟩, ⟨fun _ _ => rfl, fun _ _ => rfl, ?_, fun _ _ => rfl⟩, rfl, trivial, rfl⟩
  · intro id op hop
    cases hop
  · intro id op hop
    cases hop
  · rintro id op - (hop | hop)
    · cases hop
    · cases hop

theorem kept (h : Parallel cfg tenant ids pre) (hkept : aboutOthers tenant ids c.2 = false)
    (hok : (handle cfg c.1 c.2 (served cfg pre)).1 = .ok ())
    (hsorted : Sorted tenant ids (view (served cfg (pre ++ [c])))) :
    Parallel cfg tenant ids (pre ++ [c]) := by
  obtain ⟨hout, halike, seen, sent, hw, hv, hwbus, hvbus⟩ := kept_inStep hkept h.alike
  refine ⟨hsorted, ?_, ?_, ?_, ?_⟩
  · rw [withoutOthers_kept hkept, served_snoc, served_snoc]
    exact halike
  · rw [withoutOthers_kept hkept, served_snoc, served_snoc, hw, hv, List.filter_append,
      List.filter_append, h.seen]
  · rw [withoutOthers_kept hkept]
    exact Action.along_append.mpr ⟨h.returns, hout.symm.trans hok, trivial⟩
  · -- what was added is the same
    have heffect : effectOf cfg c (served cfg (withoutOthers tenant ids pre)) =
        effectOf cfg c (served cfg pre) := by
      simp only [effectOf, hw, hv, hwbus, hvbus, List.drop_left]
    have hcause : (effectOf cfg c (served cfg pre)).cause = c.2 := rfl
    rw [withoutOthers_kept hkept, effects_snoc, effects_snoc, List.filter_append, h.effects, heffect]
    simp [hcause, hkept]

theorem deleted (h : Parallel cfg tenant ids pre) (habout : aboutOthers tenant ids c.2 = true)
    (haside : Aside tenant ids (view (served cfg pre)) (view (served cfg (pre ++ [c]))))
    (hbreakers : ∀ key : Json × Json, tenant.dictKey = some key.1 →
      (served cfg (pre ++ [c])).self.breakers key = (served cfg pre).self.breakers key)
    (hsorted : Sorted tenant ids (view (served cfg (pre ++ [c])))) :
    Parallel cfg tenant ids (pre ++ [c]) := by
  refine ⟨hsorted, ?_, ?_, ?_, ?_⟩
  · rw [withoutOthers_deleted habout]
    refine ⟨fun id hid => ?_, fun id hid => ?_, ?_, fun key hkey => ?_⟩
    · exact (haside.pending id hid).trans (h.alike.pending id hid)
    · exact (haside.completed id hid).trans (h.alike.completed id hid)
    · rintro id op hid (hop | hop)
      · exact h.alike.owned id op hid (.inl ((haside.pending id hid).symm.trans hop))
      · exact h.alike.owned id op hid (.inr ((haside.completed id hid).symm.trans hop))
    · exact (hbreakers key hkey).trans (h.alike.breakers key hkey)
  · rw [withoutOthers_deleted habout, h.seen]
    exact haside.seen.symm
  · rw [withoutOthers_deleted habout]
    exact h.returns
  · have hcause : (effectOf cfg c (served cfg pre)).cause = c.2 := rfl
    rw [withoutOthers_deleted habout, effects_snoc, List.filter_append, h.effects]
    simp [hcause, habout]

end Parallel

/-- The two runs go in step. -/
theorem parallel_run {calls pre : List (Env × Event)} (hids : (newIds calls).Nodup)
    (hrun : (handleAll cfg calls { self := {} }).1 = .ok ()) (hpre : pre <+: calls) :
    Parallel cfg tenant (othersIds cfg tenant calls) pre := by
  induction pre using List.reverseRecOn with
  | nil => exact .nil cfg tenant _
  | append_singleton pre c ih =>
    have h := ih ((List.prefix_append pre [c]).trans hpre)
    have hok : (handle cfg c.1 c.2 (served cfg pre)).1 = .ok () := by
      obtain ⟨rest, hrest⟩ := hpre
      rw [handleAll, Action.forEach_ok_iff, ← hrest] at hrun
      exact (Action.along_append.mp (Action.along_append.mp hrun).1).2.1
    have htells : Tells tenant (othersIds cfg tenant calls) (served cfg (pre ++ [c])).trace :=
      (tells_othersIds hids hrun).mono (served_grows cfg hpre)
    have hkeyed := served_keyed cfg pre
    rw [served_snoc] at htells
    have hsorted : Sorted tenant (othersIds cfg tenant calls) (view (served cfg (pre ++ [c]))) := by
      rw [served_snoc]
      exact h.sorted.handled hkeyed (by rw [hok]; rfl) (handle_spec _) htells
    by_cases habout : aboutOthers tenant (othersIds cfg tenant calls) c.2 = true
    · obtain ⟨haside, hbreakers⟩ := deleted_aside habout h.sorted hkeyed hok htells
      refine h.deleted habout ?_ ?_ hsorted
      · rw [served_snoc]
        exact haside
      · rw [served_snoc]
        exact hbreakers
    · exact h.kept (by simpa using habout) hok hsorted

/-- In every run with ids that do not repeat and in which no call raises, whichever the tenant: without the
events about other tenants' writes no call raises either, the calls that are left do what they did, and at
every point the tenant's writes were seen to take the same steps and its breakers are the same. -/
theorem tenant_isolated (cfg : Config) (tenant : Json) (calls : List (Env × Event))
    (hids : (newIds calls).Nodup) (hrun : (handleAll cfg calls { self := {} }).1 = .ok ()) :
    Isolated cfg tenant calls where
  returns := Action.forEach_ok_iff.mpr
    (parallel_run hids hrun (List.prefix_refl calls)).returns
  effects := (parallel_run hids hrun (List.prefix_refl calls)).effects
  seen := fun _ hpre => (parallel_run hids hrun hpre).seen
  breakers := fun _ hpre key hkey =>
    ((parallel_run hids hrun hpre).alike.breakers key hkey).symm

/-! ## An outage of another tenant -/

def globexProposal : Event :=
  { orderProposal 10 with
    payload := .obj
      [("tenant_id", "globex"), ("erp_platform", "netsuite"), ("operation", "create"),
        ("target_module", "SalesOrder"), ("payload", .obj [("total", .int 10)]),
        ("requested_by", "ana")] }

/-- The ERP of one tenant is down while that of the other carries out its order. -/
def sharedRun : List (Env × Event) :=
  [(orderEnv "0" "w-1" fun _ => .error "down", orderProposal 10),
    (orderEnv "1" "w-2" fun _ => .error "down", globexProposal),
    (orderEnv "2" "w-3" fun _ => .error "down", approval "w-2"),
    (orderEnv "3" "w-4" fun _ => .ok [("id", .int 7)], approval "w-1")]

theorem sharedRun_returns : (handleAll orderConfig sharedRun { self := {} }).1 = .ok () := by
  decide +kernel

/-- The hypotheses of `tenant_isolated` hold for the run, in which another tenant has a write. -/
theorem tenant_isolated_sharedRun :
    othersIds orderConfig "acme" sharedRun = ["w-2"] ∧ Isolated orderConfig "acme" sharedRun :=
  ⟨by decide +kernel, tenant_isolated orderConfig "acme" sharedRun (by decide) sharedRun_returns⟩

end ForgeWriteAgent

end CaviErp

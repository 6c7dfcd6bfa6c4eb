import CaviErp.Forge.Proofs.ReversalProofs
import CaviErp.Lib.Streak

/-!
# What is executed is what was reviewed

`Audited` says that every pending write, and every write that was ever handed to the client, is the one that
an earlier `forge.write.requested` event showed. A proposal establishes it for its write; approvals and
executions only change the state of a write, which neither the event nor any request depends on.
-/

namespace CaviErp

open Py

namespace ForgeWriteAgent

variable {client : NetSuiteClient} {cfg : Config} {env : Env} {event : Event}

/-! ## A write under a change of its state -/

theorem Reviewed.with_state {calls : List ErpCall} {op : WriteOperation}
    (h : Reviewed client calls event op) (state : WriteState) :
    Reviewed client calls event { op with state := state } := by
  obtain ⟨call, hcall, hid, get, response, current, hget, hanswer, hcurrent, hpreview, hput⟩ :=
    h.previewed
  have hdescribes := h.describes
  refine ⟨⟨hdescribes.tenantId, hdescribes.erpPlatform, hdescribes.operation, hdescribes.targetModule,
    hdescribes.payload, hdescribes.reverses, hdescribes.targetExternalId⟩, call, hcall, hid, get,
    response, current, hget, hanswer, hcurrent, hpreview, ?_⟩
  intro net put hreq
  exact hput net put hreq

theorem Reviewed.mono {calls calls' : List ErpCall} {op : WriteOperation}
    (h : Reviewed client calls event op) (hsub : calls ⊆ calls') : Reviewed client calls' event op := by
  obtain ⟨call, hcall, hrest⟩ := h.previewed
  exact ⟨h.describes, call, hsub hcall, hrest⟩

/-! ## A proposal -/

/-- A dry run that succeeded rendered the answer to a GET of the record of the write. -/
theorem Proposes.preview {call : ErpCall} {self : ForgeWriteAgent} {op : WriteOperation}
    (h : Proposes (call.productionEnv client) event self op) :
    ∃ current, client.fetch call.net (asProposed op) = .ok current ∧
      op.diffPreview = .str (renderDiff current (asProposed op)) := by
  have hdry : ∃ diffPreview, (call.productionEnv client).coordinator.preview (asProposed op)
      diffPreview = .ok op.diffPreview := by
    cases h with
    | proposal _ _ hop => exact ⟨_, request_previews hop⟩
    | reversal _ _ _ _ _ _ _ hop =>
      unfold WriteCoordinator.requestReversal at hop
      split at hop
      · cases hop
      · exact ⟨_, request_previews hop⟩
  obtain ⟨diffPreview, hpreview⟩ := hdry
  simp only [WriteCoordinator.preview, ErpCall.productionEnv] at hpreview
  cases hfetch : client.fetch call.net (asProposed op) with
  | error text =>
    rw [hfetch] at hpreview
    cases hpreview
  | ok current =>
    rw [hfetch] at hpreview
    exact ⟨current, rfl, (Except.ok.inj hpreview).symm⟩

/-- The event of a proposal shows the write that it makes pending. -/
theorem Proposes.reviewed {call : ErpCall} {self : ForgeWriteAgent} {op : WriteOperation}
    (h : Proposes (call.productionEnv client) event self op) (correlationId : Json) :
    Reviewed client [call]
      (stepEvent (call.productionEnv client)
        (requestedStep (call.productionEnv client).coordinator op) correlationId) op := by
  refine ⟨⟨rfl, rfl, rfl, rfl, rfl, rfl, rfl⟩, call, List.mem_cons_self, h.minted.1.symm, ?_⟩
  obtain ⟨current, hfetch, hpreview⟩ := h.preview
  rw [NetSuiteClient.fetch_eq] at hfetch
  obtain ⟨get, hget, hcurrent⟩ := bind_eq_ok hfetch
  cases hanswer : call.net.netsuite get with
  | error text =>
    rw [hanswer] at hcurrent
    cases hcurrent
  | ok response =>
    rw [hanswer] at hcurrent
    refine ⟨get, response, current, hget, hanswer, hcurrent, ?_, ?_⟩
    · show Except.ok op.diffPreview = _
      rw [hpreview]
    · intro net put hput
      have hurl := (NetSuiteClient.putRequest_ok hput).2.2.1
      rw [hurl, NetSuiteClient.getRequest_url hget]
      rfl

/-! ## The invariant -/

/-- An event of the trace shows the write. -/
def Shown (client : NetSuiteClient) (past : List ErpCall) (trace : List Obs) (op : WriteOperation) :
    Prop :=
  ∃ event, Announced trace op.writeId event ∧ Reviewed client past event op

/-- What holds of the trace after the calls in `past`, also when the last of them raised. -/
structure Told (client : NetSuiteClient) (past : List ErpCall) (trace : List Obs) : Prop where
  minted : ∀ writeId event, Announced trace writeId event → writeId ∈ past.map ErpCall.newId
  unique : ∀ writeId event event', Announced trace writeId event → Announced trace writeId event' →
    event = event'
  applied : ∀ pre op outcome post, trace = pre ++ .applied op outcome :: post →
    Shown client past pre op

/-- What holds after calls that returned. -/
structure Audited (client : NetSuiteClient) (past : List ErpCall) (v : View) : Prop where
  told : Told client past v.trace
  pending : ∀ writeId op, v.pending writeId = some op →
    op.writeId = writeId ∧ Shown client past v.trace op

theorem Announced.append {trace : List Obs} {writeId : String} (h : Announced trace writeId event)
    (rest : List Obs) : Announced (trace ++ rest) writeId event :=
  ⟨List.mem_append_left _ h.1, h.2⟩

theorem announced_snoc {trace : List Obs} {obs : Obs} {writeId : String}
    (h : Announced (trace ++ [obs]) writeId event) :
    Announced trace writeId event ∨
      (obs = .emitted writeId event ∧ event.subject = "forge.write.requested") := by
  rcases List.mem_append.mp h.1 with hmem | hmem
  · exact .inl ⟨hmem, h.2⟩
  · exact .inr ⟨(List.mem_singleton.mp hmem).symm, h.2⟩

theorem Shown.append {past : List ErpCall} {trace : List Obs} {op : WriteOperation}
    (h : Shown client past trace op) (rest : List Obs) : Shown client past (trace ++ rest) op := by
  obtain ⟨event, hannounced, hreviewed⟩ := h
  exact ⟨event, hannounced.append rest, hreviewed⟩

theorem Shown.mono {past past' : List ErpCall} {trace : List Obs} {op : WriteOperation}
    (h : Shown client past trace op) (hsub : past ⊆ past') : Shown client past' trace op := by
  obtain ⟨event, hannounced, hreviewed⟩ := h
  exact ⟨event, hannounced, hreviewed.mono hsub⟩

theorem Shown.with_state {past : List ErpCall} {trace : List Obs} {op : WriteOperation}
    (h : Shown client past trace op) (state : WriteState) :
    Shown client past trace { op with state := state } := by
  obtain ⟨event, hannounced, hreviewed⟩ := h
  exact ⟨event, hannounced, hreviewed.with_state state⟩

theorem Told.mono {past past' : List ErpCall} {trace : List Obs} (h : Told client past trace)
    (hsub : past ⊆ past') : Told client past' trace where
  minted writeId event hannounced :=
    List.map_subset ErpCall.newId hsub (h.minted writeId event hannounced)
  unique := h.unique
  applied pre op outcome post hsplit := (h.applied pre op outcome post hsplit).mono hsub

theorem Audited.mono {past past' : List ErpCall} {v : View} (h : Audited client past v)
    (hsub : past ⊆ past') : Audited client past' v where
  told := h.told.mono hsub
  pending writeId op hop :=
    ⟨(h.pending writeId op hop).1, (h.pending writeId op hop).2.mono hsub⟩

/-- Another event about the write is emitted. -/
theorem Told.emitted {past : List ErpCall} {trace : List Obs} (h : Told client past trace)
    {writeId : String} {event' : Event} (hsub : event'.subject ≠ "forge.write.requested") :
    Told client past (trace ++ [.emitted writeId event']) := by
  have hold : ∀ {id event}, Announced (trace ++ [.emitted writeId event']) id event →
      Announced trace id event := by
    intro id event hannounced
    rcases announced_snoc hannounced with hannounced | ⟨hobs, hrequested⟩
    · exact hannounced
    · obtain ⟨-, rfl⟩ := Obs.emitted.inj hobs
      exact absurd hrequested hsub
  refine ⟨fun id event h' => h.minted id event (hold h'),
    fun id e e' h₁ h₂ => h.unique id e e' (hold h₁) (hold h₂), ?_⟩
  intro pre op outcome post hsplit
  rcases split_snoc hsplit with ⟨post', htrace⟩ | ⟨-, hobs⟩
  · exact h.applied pre op outcome post' htrace
  · cases hobs

theorem Told.apply {past : List ErpCall} {trace : List Obs} (h : Told client past trace)
    {op : WriteOperation} (hshown : Shown client past trace op) (outcome : Except String Obj) :
    Told client past (trace ++ [.applied op outcome]) := by
  have hold : ∀ {id event}, Announced (trace ++ [.applied op outcome]) id event →
      Announced trace id event := by
    intro id event hannounced
    rcases announced_snoc hannounced with hannounced | ⟨hobs, -⟩
    · exact hannounced
    · cases hobs
  refine ⟨fun id event h' => h.minted id event (hold h'),
    fun id e e' h₁ h₂ => h.unique id e e' (hold h₁) (hold h₂), ?_⟩
  intro pre op' outcome' post hsplit
  rcases split_snoc hsplit with ⟨post', htrace⟩ | ⟨rfl, hobs⟩
  · exact h.applied pre op' outcome' post' htrace
  · obtain ⟨rfl, -⟩ := Obs.applied.inj hobs
    exact hshown

/-- A write with a new id is announced. -/
theorem Told.announce {past : List ErpCall} {trace : List Obs} (h : Told client past trace)
    {call : ErpCall} (hfresh : call.newId ∉ past.map ErpCall.newId) (event' : Event) :
    Told client (past ++ [call]) (trace ++ [.emitted call.newId event']) := by
  have hold : ∀ {id event}, Announced (trace ++ [.emitted call.newId event']) id event →
      (Announced trace id event ∧ id ≠ call.newId) ∨ (id = call.newId ∧ event = event') := by
    intro id event hannounced
    rcases announced_snoc hannounced with hannounced | ⟨hobs, -⟩
    · refine .inl ⟨hannounced, ?_⟩
      rintro rfl
      exact hfresh (h.minted _ event hannounced)
    · obtain ⟨hid, hevent⟩ := Obs.emitted.inj hobs
      exact .inr ⟨hid.symm, hevent.symm⟩
  refine ⟨?_, ?_, ?_⟩
  · intro id event hannounced
    rw [List.map_append]
    rcases hold hannounced with ⟨hannounced, -⟩ | ⟨rfl, -⟩
    · exact List.mem_append_left _ (h.minted id event hannounced)
    · exact List.mem_append_right _ List.mem_cons_self
  · intro id e e' he he'
    rcases hold he with ⟨he, hne⟩ | ⟨rfl, rfl⟩
    · rcases hold he' with ⟨he', -⟩ | ⟨rfl, -⟩
      · exact h.unique id e e' he he'
      · exact absurd rfl hne
    · rcases hold he' with ⟨-, hne⟩ | ⟨-, rfl⟩
      · exact absurd rfl hne
      · rfl
  · intro pre op outcome post hsplit
    rcases split_snoc hsplit with ⟨post', htrace⟩ | ⟨-, hobs⟩
    · exact (h.applied pre op outcome post' htrace).mono (List.subset_append_left _ _)
    · cases hobs

/-! ## Steps -/

theorem Audited.tell {past : List ErpCall} {v : View} (h : Audited client past v) {obs : Obs}
    (htold : Told client past (v.trace ++ [obs])) : Audited client past (v.tell obs) where
  told := htold
  pending writeId op hop :=
    ⟨(h.pending writeId op hop).1, (h.pending writeId op hop).2.append [obs]⟩

theorem Audited.put {past : List ErpCall} {v : View} (h : Audited client past v) {writeId : String}
    {op : WriteOperation} (hid : op.writeId = writeId) (hshown : Shown client past v.trace op) :
    Audited client past (v.put writeId op) where
  told := h.told
  pending writeId' op' hop' := by
    rcases update_eq_some hop' with ⟨rfl, hop⟩ | ⟨-, hop⟩
    · obtain rfl := Option.some.inj hop
      exact ⟨hid, hshown⟩
    · exact h.pending writeId' op' hop

theorem Audited.pop {past : List ErpCall} {v : View} (h : Audited client past v) (writeId : String) :
    Audited client past (v.pop writeId) where
  told := h.told
  pending writeId' op' hop' := by
    rcases update_eq_some hop' with ⟨-, hop⟩ | ⟨-, hop⟩
    · cases hop
    · exact h.pending writeId' op' hop

theorem Audited.finish {past : List ErpCall} {v : View} (h : Audited client past v) (writeId : String)
    (op : WriteOperation) : Audited client past (v.finish writeId op) :=
  ⟨h.told, (h.pop writeId).pending⟩

theorem Audited.executed {past : List ErpCall} {v v' : View} {op : WriteOperation} {ok : Bool}
    (h : Audited client past v) (hshown : Shown client past v.trace op)
    (hex : Executed cfg env event op v ok v') : Audited client past v' := by
  cases hex with
  | refused => exact h
  | failed _ => exact h.tell (h.told.apply hshown _)
  | unannounced _ _ => exact (h.tell (h.told.apply hshown _)).finish _ _
  | completed _ _ =>
    refine ((h.tell (h.told.apply hshown _)).finish _ _).tell ?_
    exact (h.told.apply hshown _).emitted
      (show Json.str "forge.write.completed" ≠ "forge.write.requested" by decide)

/-- One call keeps the trace in order, and the pending writes too where it returns. -/
theorem Audited.step {past : List ErpCall} {w : World} {call : ErpCall}
    (h : Audited client past (view w)) (cfg : Config) (hfresh : call.newId ∉ past.map ErpCall.newId) :
    let r := handle cfg (call.productionEnv client) call.event w
    Told client (past ++ [call]) (view r.2).trace ∧
      (r.1 = .ok () → Audited client (past ++ [call]) (view r.2)) := by
  intro r
  have hmono := h.mono (List.subset_append_left past [call])
  have hboth : ∀ {r : Except PyError Unit × World}, Audited client (past ++ [call]) (view r.2) →
      Told client (past ++ [call]) (view r.2).trace ∧
        (r.1 = .ok () → Audited client (past ++ [call]) (view r.2)) :=
    fun haudited => ⟨haudited.told, fun _ => haudited⟩
  have hcourse := handle_course cfg (call.productionEnv client) call.event w
  change Course _ _ _ _ r at hcourse
  clear_value r
  cases hcourse with
  | idle r => exact hboth hmono
  | quarantined error =>
    refine hboth ?_
    rw [deadLetter_view]
    exact hmono
  | proposed hp =>
    rename_i op
    obtain ⟨hid, -⟩ := hp.minted
    rcases emit_view cfg (call.productionEnv client) call.event
      (requestedStep (call.productionEnv client).coordinator op) (pended op.writeId op w) with
      ⟨hok, -, hview⟩ | ⟨-, hview⟩
    · -- the write is pending, but the call raised
      refine ⟨?_, fun hreturned => ?_⟩
      · rw [hview]
        exact hmono.told
      · rw [hreturned] at hok
        cases hok
    · refine hboth ?_
      rw [hview]
      have htold := h.told.announce hfresh (stepEvent (call.productionEnv client)
        (requestedStep (call.productionEnv client).coordinator op) call.event.correlationId)
      have hnew : call.newId = op.writeId := hid.symm
      rw [hnew] at htold
      have hshown : Shown client (past ++ [call]) ((view w).trace ++
          [obsOf (call.productionEnv client) call.event
            (requestedStep (call.productionEnv client).coordinator op)]) op := by
        refine ⟨_, ⟨List.mem_append_right _ List.mem_cons_self, rfl⟩, ?_⟩
        exact (hp.reviewed _).mono (List.subset_append_right _ _)
      exact (hmono.tell htold).put rfl hshown
  | retried happroval hop hstate =>
    refine hboth ?_
    exact hmono.executed (hmono.pending _ _ hop).2 (execute_spec cfg _ call.event hstate w)
  | approved happroval hreviewer hop hstate =>
    rename_i writeId op reviewer
    refine hboth ?_
    obtain ⟨hid, hshown⟩ := hmono.pending writeId op hop
    have hput : Audited client (past ++ [call]) ((view w).put writeId { op with state := .approved }) :=
      hmono.put hid (hshown.with_state _)
    rcases announceAndExecute_executed cfg (call.productionEnv client) call.event writeId op reviewer w
      with ⟨-, hview⟩ | ⟨-, hex⟩
    · rw [hview]
      exact hput
    · refine (hput.tell (hput.told.emitted ?_)).executed ((hshown.with_state _).append _) hex
      exact (show Json.str "forge.write.approved" ≠ "forge.write.requested" by decide)
  | rejected hrefusal hop hstate =>
    rename_i writeId op reviewer reason
    refine hboth ?_
    rcases emit_view cfg (call.productionEnv client) call.event
      (rejectedStep (call.productionEnv client).coordinator op reviewer reason)
      (unpended writeId w) with ⟨-, -, hview⟩ | ⟨-, hview⟩
    · rw [hview]
      exact hmono.pop writeId
    · rw [hview]
      refine (hmono.pop writeId).tell (hmono.told.emitted ?_)
      exact (show Json.str "forge.write.rejected" ≠ "forge.write.requested" by decide)

/-! ## Runs -/

/-- The calls in `rest` follow those in `past`. -/
theorem Audited.run {rest : List ErpCall} {past : List ErpCall} {w : World}
    (h : Audited client past (view w)) (hids : ((past ++ rest).map ErpCall.newId).Nodup) :
    Told client (past ++ rest) (view (handleAll cfg
      (rest.map fun call => (call.productionEnv client, call.event)) w).2).trace := by
  induction rest generalizing past w with
  | nil =>
    rw [List.append_nil]
    exact h.told
  | cons call rest ih =>
    have hfresh : call.newId ∉ past.map ErpCall.newId := by
      intro hmem
      rw [List.map_append, List.nodup_append] at hids
      exact hids.2.2 call.newId hmem call.newId List.mem_cons_self rfl
    have hcons : past ++ call :: rest = (past ++ [call]) ++ rest := by
      rw [List.append_assoc]
      rfl
    obtain ⟨htold, haudited⟩ := h.step cfg hfresh
    unfold handleAll
    rw [List.map_cons, Action.forEach_cons, hcons]
    rw [hcons] at hids
    rcases hr : handle cfg (call.productionEnv client) call.event w with ⟨out, w'⟩
    rw [hr] at htold haudited
    cases out with
    | error e => exact htold.mono (List.subset_append_left _ _)
    | ok u => exact ih (haudited rfl) hids

theorem audited_init (client : NetSuiteClient) : Audited client [] (view { self := {} }) where
  told := by
    refine ⟨?_, ?_, ?_⟩
    · rintro writeId event ⟨hmem, -⟩
      cases hmem
    · rintro writeId event event' ⟨hmem, -⟩
      cases hmem
    · intro pre op outcome post hsplit
      simp [view] at hsplit
  pending writeId op hop := by cases hop

/-- Every write that is handed to the client was announced before, by one event, and is the write that the
event shows: the fields agree, and its PUT goes to the url of the GET whose answer was rendered into the
diff of the event. -/
theorem executed_as_reviewed (cfg : Config) (client : NetSuiteClient) (calls : List ErpCall)
    (hids : (calls.map ErpCall.newId).Nodup) (pre post : List Obs) (op : WriteOperation)
    (outcome : Except String Obj)
    (happlied : (production cfg client calls).2.trace = pre ++ .applied op outcome :: post) :
    (∃ event, Announced pre op.writeId event) ∧
      ∀ event, Announced (production cfg client calls).2.trace op.writeId event →
        Reviewed client calls event op := by
  have htold : Told client calls (production cfg client calls).2.trace :=
    (audited_init client).run hids
  obtain ⟨event, hannounced, hreviewed⟩ := htold.applied pre op outcome post happlied
  refine ⟨⟨event, hannounced⟩, ?_⟩
  intro event' hannounced'
  have hbefore : Announced (production cfg client calls).2.trace op.writeId event := by
    rw [happlied]
    exact hannounced.append _
  rw [htold.unique op.writeId event' event hannounced' hbefore]
  exact hreviewed

/-- The order as it is handed to the client. -/
def approvedOrder : WriteOperation := { completedOrder with state := .approved }

/-- The write of a call of `apply`. -/
def Obs.applied? : Obs → Option WriteOperation
  | .applied op _ => some op
  | .emitted _ _ => none

theorem orderCalls_applied :
    (production orderConfig exampleClient orderCalls).2.trace[2]?.bind Obs.applied? =
      some approvedOrder := by
  decide +kernel

/-- The hypotheses of `executed_as_reviewed` hold for the order that is proposed and approved. -/
theorem executed_as_reviewed_order :
    ∃ pre post outcome, (production orderConfig exampleClient orderCalls).2.trace =
        pre ++ .applied approvedOrder outcome :: post ∧
      (∃ event, Announced pre "w-1" event) ∧
      ∀ event, Announced (production orderConfig exampleClient orderCalls).2.trace "w-1" event →
        Reviewed exampleClient orderCalls event approvedOrder := by
  obtain ⟨obs, hobs, happlied⟩ := Option.bind_eq_some_iff.mp orderCalls_applied
  obtain ⟨hlength, hget⟩ := List.getElem?_eq_some_iff.mp hobs
  have hsplit := (List.take_append_drop 2
    (production orderConfig exampleClient orderCalls).2.trace).symm
  rw [← List.getElem_cons_drop hlength, hget] at hsplit
  cases obs with
  | emitted writeId event => cases happlied
  | applied op outcome =>
    obtain rfl := Option.some.inj happlied
    exact ⟨_, _, outcome, hsplit, executed_as_reviewed orderConfig exampleClient orderCalls (by decide)
      _ _ approvedOrder outcome hsplit⟩

end ForgeWriteAgent

end CaviErp

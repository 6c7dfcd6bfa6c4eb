import CaviErp.Forge.Erp
import CaviErp.Forge.Proofs.RedeliveryProofs

/-!
# Writes and records

`Stepped` says what one call does to the dictionaries of the agent and to the PUTs that NetSuite carried
out; everything about the records follows from it.
-/

namespace CaviErp

open Py

namespace NetSuiteClient

variable {c : NetSuiteClient} {net : Net} {op : WriteOperation}

theorem commits_of_apply {conf : Obj} (h : c.apply net op = .ok conf) : c.commits net op = true := by
  unfold apply at h
  obtain ⟨request, hrequest, h⟩ := bind_eq_ok h
  unfold commits
  rw [hrequest]
  cases hanswer : net.netsuite request with
  | error text =>
    rw [hanswer] at h
    cases h
  | ok response =>
    rw [hanswer] at h
    by_cases hsuccess : response.success = true
    · exact net.honest request response hanswer hsuccess
    · simp [hsuccess] at h

end NetSuiteClient

namespace ForgeWriteAgent

/-! ## One call -/

/-- The dictionaries, and the PUTs that were carried out. -/
structure Scene where
  pending : String → Option WriteOperation
  completed : String → Option WriteOperation
  history : List Put

def System.scene (s : System) : Scene := ⟨s.world.self.pending, s.world.self.completed, s.history⟩

/-- What the execution of an approved write can do; it is only called where the breaker admits it. -/
inductive Ran (client : NetSuiteClient) (net : Net) (admitted : Prop) (op : WriteOperation)
    (v : Scene) : Scene → Prop
  | refused : Ran client net admitted op v v
  | failed (h : admitted) : Ran client net admitted op v
      { v with history := v.history ++ if client.commits net op then [⟨op, false⟩] else [] }
  | returned (h : admitted) (hcommits : client.commits net op = true) : Ran client net admitted op v
      ⟨Function.update v.pending op.writeId none,
        Function.update v.completed op.writeId (some { op with state := .completed }),
        v.history ++ [⟨op, true⟩]⟩

/-- What one call can do. -/
inductive Stepped (cfg : Config) (client : NetSuiteClient) (call : ErpCall) (w : World) (v : Scene) :
    Scene → Prop
  | idle : Stepped cfg client call w v v
  | proposed {op : WriteOperation} (h : Proposes (call.clientEnv client) call.event w.self op) :
    Stepped cfg client call w v { v with pending := Function.update v.pending op.writeId (some op) }
  | rejected {writeId : String} {op : WriteOperation} (hop : v.pending writeId = some op) :
    Stepped cfg client call w v { v with pending := Function.update v.pending writeId none }
  /-- An approval, or the replay of one. -/
  | executed {writeId : String} {op : WriteOperation} {v' : Scene} (h : Approval call.event writeId)
    (hop : v.pending writeId = some op)
    (hran : Ran client call.net (Admits cfg (call.clientEnv client) op w) { op with state := .approved }
      { v with pending := Function.update v.pending writeId (some { op with state := .approved }) } v') :
    Stepped cfg client call w v v'

section Step

variable {cfg : Config} {client : NetSuiteClient} {net : Net} {env : Env} {event : Event}

theorem putsOf_append (trace trace' : List Obs) :
    putsOf client net (trace ++ trace') = putsOf client net trace ++ putsOf client net trace' :=
  List.filterMap_append

theorem putsOf_obsOf (step : WriteStep) : putsOf client net [obsOf env event step] = [] := rfl

/-- The scene after a part of a call that started from the view `v`. -/
def sceneAfter (client : NetSuiteClient) (net : Net) (v : View) (history : List Put) (v' : View) :
    Scene :=
  ⟨v'.pending, v'.completed, history ++ putsOf client net (v'.trace.drop v.trace.length)⟩

theorem sceneAfter_eq {v v' : View} {obs : List Obs} (htrace : v'.trace = v.trace ++ obs)
    (history : List Put) :
    sceneAfter client net v history v' =
      ⟨v'.pending, v'.completed, history ++ putsOf client net obs⟩ := by
  unfold sceneAfter
  rw [htrace, List.drop_left]

theorem sceneAfter_quiet {v v' : View} {obs : List Obs} (htrace : v'.trace = v.trace ++ obs)
    (hquiet : putsOf client net obs = []) (history : List Put) :
    sceneAfter client net v history v' = ⟨v'.pending, v'.completed, history⟩ := by
  rw [sceneAfter_eq htrace, hquiet, List.append_nil]

theorem admits_congr {op : WriteOperation} {w w' : World} (h : w'.self.breakers = w.self.breakers) :
    Admits cfg env op w' ↔ Admits cfg env op w := by
  unfold Admits breakerOf
  rw [h]

theorem execute_of_not_admits {op : WriteOperation} {w : World} {correlationId : Json}
    (h : ¬ Admits cfg env op w) :
    view (execute cfg env op event correlationId w).2 = view w := by
  cases hkey : breakerKey op with
  | error e => rw [execute_of_unkeyed hkey]
  | ok key =>
    cases hcheck : ((breakerOf key w).check cfg.breaker env.breakerClock).1 with
    | none => exact absurd ⟨key, hkey, hcheck⟩ h
    | some refusal =>
      rw [execute_of_refusal hkey hcheck, deadLetter_view]
      rfl

theorem executed_ran {op : WriteOperation} {v v₁ v' : View} {ok : Bool} {admitted : Prop}
    {obs : List Obs} {history : List Put} (hwriter : env.coordinator.writer = client.apply net)
    (htrace : v₁.trace = v.trace ++ obs) (hquiet : putsOf client net obs = [])
    (h : Executed cfg env event op v₁ ok v') (hadmitted : ¬ admitted → v' = v₁) :
    Ran client net admitted op ⟨v₁.pending, v₁.completed, history⟩
      (sceneAfter client net v history v') := by
  by_cases ha : admitted
  · have happly : ∀ outcome, putsOf client net (obs ++ [.applied op outcome]) =
        if client.commits net op then [⟨op, outcome.isOk⟩] else [] := by
      intro outcome
      rw [putsOf_append, hquiet]
      by_cases hc : client.commits net op = true <;> simp [putsOf, hc]
    have hcommits : ∀ {confirmation}, env.coordinator.writer op = .ok confirmation →
        client.commits net op = true := by
      intro confirmation hok
      rw [hwriter] at hok
      exact NetSuiteClient.commits_of_apply hok
    cases h with
    | refused =>
      rw [sceneAfter_quiet htrace hquiet]
      exact .refused
    | failed _ =>
      rename_i text _
      have hfailed : (v₁.tell (.applied op (.error text))).trace =
          v.trace ++ (obs ++ [.applied op (.error text)]) := by
        rw [View.tell, htrace, List.append_assoc]
      rw [sceneAfter_eq hfailed, happly]
      exact .failed ha
    | unannounced hok _ =>
      rename_i confirmation _
      have hreturned : ((v₁.tell (.applied op (.ok confirmation))).finish op.writeId
          { op with state := .completed }).trace =
            v.trace ++ (obs ++ [.applied op (.ok confirmation)]) := by
        rw [View.finish, View.tell, htrace, List.append_assoc]
      rw [sceneAfter_eq hreturned, happly, if_pos (hcommits hok)]
      exact .returned ha (hcommits hok)
    | completed hok _ =>
      rename_i confirmation _
      have hreturned : (((v₁.tell (.applied op (.ok confirmation))).finish op.writeId
          { op with state := .completed }).tell
            (obsOf env event (completedStep env.coordinator op confirmation))).trace =
              v.trace ++ ((obs ++ [.applied op (.ok confirmation)]) ++
                [obsOf env event (completedStep env.coordinator op confirmation)]) := by
        rw [View.tell, View.finish, View.tell, htrace, List.append_assoc, List.append_assoc]
      rw [sceneAfter_eq hreturned, putsOf_append, putsOf_obsOf, List.append_nil, happly,
        if_pos (hcommits hok)]
      exact .returned ha (hcommits hok)
  · rw [hadmitted ha, sceneAfter_quiet htrace hquiet]
    exact .refused

theorem emit_quiet (cfg : Config) (client : NetSuiteClient) (net : Net) (env : Env) (event : Event)
    (step : WriteStep) (w : World) :
    ∃ obs, (emit cfg env step event.correlationId w).2.trace = w.trace ++ obs ∧
      putsOf client net obs = [] := by
  rcases emit_view cfg env event step w with ⟨-, -, hview⟩ | ⟨-, hview⟩
  · exact ⟨[], (congrArg View.trace hview).trans (List.append_nil _).symm, rfl⟩
  · exact ⟨[obsOf env event step], congrArg View.trace hview, rfl⟩

theorem sceneAfter_emit {w w' : World} (htrace : w'.trace = w.trace) (step : WriteStep)
    (history : List Put) :
    sceneAfter client net (view w) history
        (view (emit cfg env step event.correlationId w').2) =
      ⟨w'.self.pending, w'.self.completed, history⟩ := by
  obtain ⟨obs, hobs, hquiet⟩ := emit_quiet cfg client net env event step w'
  have hself := emit_self cfg env step event.correlationId w'
  rw [htrace] at hobs
  refine (sceneAfter_quiet hobs hquiet history).trans ?_
  unfold view
  rw [hself]

/-- An approval that is announced and executed, or whose announcement raises. -/
theorem announceAndExecute_ran {writeId : String} {op : WriteOperation} {reviewer : Json} {w : World}
    {history : List Put} (hwriter : env.coordinator.writer = client.apply net) :
    Ran client net (Admits cfg env op w) { op with state := .approved }
      ⟨Function.update w.self.pending writeId (some { op with state := .approved }),
        w.self.completed, history⟩
      (sceneAfter client net (view w) history (view (announceAndExecute cfg env event op reviewer
        (pended writeId { op with state := .approved } w)).2)) := by
  obtain ⟨obs, hobs, hquiet⟩ := emit_quiet cfg client net env event
    (approvedStep env.coordinator op reviewer) (pended writeId { op with state := .approved } w)
  have hself := emit_self cfg env (approvedStep env.coordinator op reviewer) event.correlationId
    (pended writeId { op with state := .approved } w)
  have hcases := announceAndExecute_cases cfg env event op reviewer
    (pended writeId { op with state := .approved } w)
  generalize (emit cfg env (approvedStep env.coordinator op reviewer) event.correlationId
    (pended writeId { op with state := .approved } w)) = announced at hobs hself hcases
  obtain ⟨r, w'⟩ := announced
  replace hobs : (view w').trace = (view w).trace ++ obs := hobs
  replace hself : w'.self = (pended writeId { op with state := .approved } w).self := hself
  have hstart : (⟨Function.update w.self.pending writeId (some { op with state := .approved }),
      w.self.completed, history⟩ : Scene) = ⟨(view w').pending, (view w').completed, history⟩ := by
    unfold view
    rw [hself]
    rfl
  rw [hstart]
  rcases hcases with ⟨e, -, hr⟩ | ⟨-, hr⟩
  · rw [hr]
    refine (sceneAfter_quiet hobs hquiet history).symm ▸ ?_
    exact .refused
  · rw [hr]
    refine executed_ran hwriter hobs hquiet (execute_spec cfg env event rfl w') ?_
    intro hnot
    refine execute_of_not_admits fun hadmits => hnot ?_
    exact (admits_congr (by rw [hself]; rfl)).mp hadmits

/-- Everything a call can do to the dictionaries and to the PUTs. -/
theorem step_spec (cfg : Config) (client : NetSuiteClient) (s : System) (call : ErpCall) :
    Stepped cfg client call s.world s.scene (s.step cfg client call).scene := by
  have hcourse := handle_course cfg (call.clientEnv client) call.event s.world
  have hscene : (s.step cfg client call).scene = sceneAfter client call.net (view s.world) s.history
    (view (handle cfg (call.clientEnv client) call.event s.world).2) := rfl
  rw [hscene]
  generalize handle cfg (call.clientEnv client) call.event s.world = r at hcourse
  cases hcourse with
  | idle r =>
    rw [sceneAfter_quiet (List.append_nil _).symm rfl]
    exact .idle
  | quarantined error =>
    rw [deadLetter_view, sceneAfter_quiet (List.append_nil _).symm rfl]
    exact .idle
  | proposed hp =>
    rename_i op
    rw [sceneAfter_emit (show (pended op.writeId op s.world).trace = s.world.trace from rfl)]
    exact .proposed hp
  | retried happroval hop hstate =>
    rename_i writeId op
    refine .executed happroval hop ?_
    rw [with_approved hstate]
    have hsame : Function.update s.world.self.pending writeId (some op) = s.world.self.pending := by
      rw [← hop, Function.update_eq_self]
    show Ran client call.net _ op ⟨Function.update s.world.self.pending writeId (some op), _, _⟩ _
    rw [hsame]
    exact executed_ran rfl (List.append_nil _).symm rfl
      (execute_spec cfg (call.clientEnv client) call.event hstate s.world) execute_of_not_admits
  | approved happroval hreviewer hop hstate =>
    rename_i writeId op reviewer
    exact .executed happroval hop (announceAndExecute_ran rfl)
  | rejected hrefusal hop hstate =>
    rename_i writeId op reviewer reason
    rw [sceneAfter_emit (show (unpended writeId s.world).trace = s.world.trace from rfl)]
    exact .rejected hop

end Step

/-! ## Runs -/

section Runs

variable {cfg : Config} {client : NetSuiteClient}

theorem run_snoc (calls : List ErpCall) (call : ErpCall) :
    System.run cfg client (calls ++ [call]) = (System.run cfg client calls).step cfg client call := by
  unfold System.run
  rw [List.foldl_append]
  rfl

/-- A PUT is only sent for an approval, and at most one is. -/
theorem Stepped.history {call : ErpCall} {w : World} {v v' : Scene}
    (h : Stepped cfg client call w v v') :
    v'.history = v.history ∨
    ∃ writeId op returned, Approval call.event writeId ∧ v.pending writeId = some op ∧
      Admits cfg (call.clientEnv client) op w ∧
      client.commits call.net { op with state := .approved } = true ∧
      v'.history = v.history ++ [⟨{ op with state := .approved }, returned⟩] := by
  cases h with
  | idle => exact .inl rfl
  | proposed _ => exact .inl rfl
  | rejected _ => exact .inl rfl
  | executed happroval hop hran =>
    rename_i writeId op
    cases hran with
    | refused => exact .inl rfl
    | failed hadmits =>
      by_cases hc : client.commits call.net { op with state := .approved } = true
      · exact .inr ⟨writeId, op, false, happroval, hop, hadmits, hc, by simp [hc]⟩
      · exact .inl (by simp [hc])
    | returned hadmits hc => exact .inr ⟨writeId, op, true, happroval, hop, hadmits, hc, rfl⟩

theorem Approval.unique {event : Event} {writeId writeId' : String} (h : Approval event writeId)
    (h' : Approval event writeId') : writeId = writeId' :=
  Json.str.inj (Except.ok.inj (h.names.2.symm.trans h'.names.2))

theorem System.erp_of_put {s s' : System} {op : WriteOperation} {returned : Bool}
    (h : s'.scene.history = s.scene.history ++ [⟨op, returned⟩]) (initial : Erp) :
    s'.erp initial = (s.erp initial).put (recordId op) (fieldsOf op) := by
  have hhistory : s'.history = s.history ++ [⟨op, returned⟩] := h
  unfold System.erp
  rw [hhistory, List.map_append]
  exact Upsert.Store.puts_snoc _ _

theorem System.erp_of_same {s s' : System} (h : s'.scene.history = s.scene.history) (initial : Erp) :
    s'.erp initial = s.erp initial := by
  have hhistory : s'.history = s.history := h
  unfold System.erp
  rw [hhistory]

/-- Every completed write was carried out. -/
def CompletedPut (v : Scene) : Prop :=
  ∀ writeId op, v.completed writeId = some op → ∃ p ∈ v.history, p.returned = true ∧
    p.op.writeId = writeId ∧ p.op = { op with state := .approved }

theorem Ran.completedPut {net : Net} {admitted : Prop} {op : WriteOperation} {v v' : Scene}
    (h : Ran client net admitted op v v') (hstate : op.state = .approved) (hinv : CompletedPut v) :
    CompletedPut v' := by
  cases h with
  | refused => exact hinv
  | failed _ =>
    intro writeId op' hop'
    obtain ⟨p, hp, hrest⟩ := hinv writeId op' hop'
    exact ⟨p, List.mem_append_left _ hp, hrest⟩
  | returned _ _ =>
    intro writeId op' hop'
    rcases update_eq_some hop' with ⟨rfl, hop⟩ | ⟨-, hop'⟩
    · refine ⟨⟨op, true⟩, List.mem_append_right _ List.mem_cons_self, rfl, rfl, ?_⟩
      obtain rfl := Option.some.inj hop
      exact (with_approved hstate).symm
    · obtain ⟨p, hp, hrest⟩ := hinv writeId op' hop'
      exact ⟨p, List.mem_append_left _ hp, hrest⟩

theorem run_completedPut (cfg : Config) (client : NetSuiteClient) (calls : List ErpCall) :
    CompletedPut (System.run cfg client calls).scene := by
  induction calls using List.reverseRecOn with
  | nil =>
    intro writeId op hop
    cases hop
  | append_singleton calls call ih =>
    rw [run_snoc]
    have hstep := step_spec cfg client (System.run cfg client calls) call
    generalize ((System.run cfg client calls).step cfg client call).scene = v' at hstep
    cases hstep with
    | idle => exact ih
    | proposed _ => exact ih
    | rejected _ => exact ih
    | executed _ _ hran => exact hran.completedPut rfl ih

end Runs

/-! ## A client for the runs below -/

def exampleClient : NetSuiteClient := .init "https://vault" "secret" "https://netsuite/"

/-- Vault signs and NetSuite carries the PUT out; whether its answer arrives is up to `netsuite`. -/
def carryingOut (netsuite : Request → Except String Response) : Net where
  vault := fun _ => .ok ⟨200, [("authorization_header", "OAuth")], ""⟩
  netsuite := netsuite
  committed := fun _ => true
  honest := fun _ _ _ _ => rfl

def answered : Net := carryingOut fun _ => .ok { statusCode := 204 }

def lost : Net := carryingOut fun _ => .error "timed out"

end ForgeWriteAgent

end CaviErp

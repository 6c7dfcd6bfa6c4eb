import CaviErp.Forge.Dispatch
import CaviErp.Forge.Proofs.LifecycleProofs

/-!
# Nothing reaches the write agent through the bus

None of the three subjects the write agent subscribes to has a registered contract, so `_dispatch`
quarantines every message before `handle` sees it. The two paths agree exactly where the direct calls
do nothing either: where every proposal fails its dry run.
-/

namespace CaviErp

open Py

namespace ForgeWriteAgent

/-! ## Through the bus -/

/-- A subject the write agent subscribes to. -/
def Subscribed (event : Event) : Prop := ∃ s ∈ subjects, event.subject = .str s

/-- There is no contract for the subjects of the write agent, in any version. -/
theorem contractsNamed_subjects {s : String} (hs : s ∈ subjects) : contractsNamed (s ++ ".v") = [] := by
  have h : ∀ s ∈ subjects, contractsNamed (s ++ ".v") = [] := by decide +kernel
  exact h s hs

/-- An event of the write agent's subjects fails validation, whatever it says. -/
theorem validate_subscribed {dir : String} {complaint : Schema → Json → String} {event : Event}
    (h : Subscribed event) : ∃ e, (SchemaRegistry.repository dir complaint).validate event.subject
      event.schemaVersion event.payload = .error e := by
  obtain ⟨s, hs, hsub⟩ := h
  cases hv : (SchemaRegistry.repository dir complaint).validate event.subject event.schemaVersion
      event.payload with
  | error e => exact ⟨e, rfl⟩
  | ok u =>
    exfalso
    obtain ⟨schema, hfile, -⟩ := (SchemaRegistry.validate_ok_iff _).mp hv
    rw [hsub] at hfile
    have hlookup : schemaFiles.lookup (s ++ ".v" ++ event.schemaVersion.pyStr) = some schema := hfile
    have hmem := mem_contractsNamed hlookup
    rw [contractsNamed_subjects hs] at hmem
    cases hmem

variable {cfg : Config} {dir : String} {complaint : Schema → Json → String}

/-- A message on a subscribed subject is quarantined: the agent sees nothing of it. -/
theorem onMessage_view (hreg : cfg.rt.registry = .repository dir complaint) (env : Env) {event : Event}
    (h : Subscribed event) (w : World) :
    view (BaseAgent.onMessage cfg.rt env.infra (handle cfg env) (.ofDict event.toDict) w).2 =
      view w := by
  have hread : Subscribed event.reread := by
    obtain ⟨s, hs, hsub⟩ := h
    exact ⟨s, hs, by rw [Event.reread, hsub]; rfl⟩
  obtain ⟨e, he⟩ : ∃ e, (SchemaRegistry.repository dir complaint).validate event.reread.subject
      event.reread.schemaVersion event.reread.payload = .error e := validate_subscribed hread
  rw [BaseAgent.onMessage_of_decode cfg.rt env.infra rfl (BaseAgent.decode_toDict event),
    BaseAgent.dispatch_of_invalid cfg.rt env.infra (by rw [hreg]; exact he)]
  exact deadLetter_view event.reread e.text w

theorem runAll_view (hreg : cfg.rt.registry = .repository dir complaint) {calls : List (Env × Event)}
    (h : ∀ c ∈ calls, Subscribed c.2) (w : World) : view (runAll cfg calls w).2 = view w := by
  induction calls generalizing w with
  | nil => rfl
  | cons c calls ih =>
    have hstep := onMessage_view hreg c.1 (h c List.mem_cons_self) w
    unfold runAll messagesOf BaseAgent.run
    rw [List.map_cons, Action.forEach_cons]
    rcases hr : BaseAgent.onMessage cfg.rt c.1.infra (handle cfg c.1) (.ofDict c.2.toDict) w with ⟨r, w'⟩
    rw [hr] at hstep
    cases r with
    | error e => exact hstep
    | ok u => exact (ih (fun d hd => h d (List.mem_cons_of_mem c hd)) w').trans hstep

/-! ## Direct calls -/

/-- An agent that knows of no write. -/
structure Blank (v : View) : Prop where
  pending : v.pending = fun _ => none
  completed : v.completed = fun _ => none

theorem lookup_blank (key : Json) :
    lookup (fun _ => none) key = .ok none ∨ ∃ e, lookup (fun _ => none) key = .error e := by
  cases key with
  | arr xs => exact .inr ⟨_, rfl⟩
  | obj kvs => exact .inr ⟨_, rfl⟩
  | _ => exact .inl rfl

theorem propose_of_dryRunFails {env : Env} {event : Event} (h : DryRunFails env event) (w : World) :
    view (propose cfg env event w).2 = view w := by
  obtain ⟨e, he, herp⟩ := h
  unfold propose
  rw [he]
  have hr : record cfg env event (.error e) =
      deadLetter cfg env event ("dry-run failed: " ++ e.text) := if_pos herp
  rw [hr, deadLetter_view]

/-- A decision or a reversal finds no write to act on. -/
theorem decide_blank {env : Env} {event : Event} {w : World} (h : Blank (view w)) :
    view (decide cfg env event w).2 = view w := by
  unfold decide
  simp only [Action.bind_apply, Action.ofExcept_apply, Action.read_apply]
  cases item event.payload "write_id" with
  | error e => rfl
  | ok writeId =>
    simp only [show w.self.pending = fun _ => none from h.pending]
    rcases lookup_blank writeId with hl | ⟨e, hl⟩
    · rw [hl]
      rfl
    · rw [hl]

@[inherit_doc decide_blank]
theorem reverse_blank {env : Env} {event : Event} {w : World} (h : Blank (view w)) :
    view (reverse cfg env event w).2 = view w := by
  unfold reverse
  simp only [Action.bind_apply, Action.ofExcept_apply, Action.read_apply]
  cases item event.payload "write_id" with
  | error e => rfl
  | ok writeId =>
    simp only [show w.self.completed = fun _ => none from h.completed]
    rcases lookup_blank writeId with hl | ⟨e, hl⟩
    · rw [hl]
      exact deadLetter_view _ _ w
    · rw [hl]

theorem handle_blank {env : Env} {event : Event} {w : World} (h : Blank (view w))
    (hdry : event.subject = "forge.write.propose" → DryRunFails env event) :
    view (handle cfg env event w).2 = view w := by
  unfold handle
  split
  · rename_i hsub
    exact propose_of_dryRunFails (hdry hsub) w
  · split
    · exact decide_blank h
    · split
      · exact reverse_blank h
      · rfl

theorem handleAll_blank {calls : List (Env × Event)}
    (hdry : ∀ c ∈ calls, c.2.subject = "forge.write.propose" → DryRunFails c.1 c.2) {w : World}
    (h : Blank (view w)) : view (handleAll cfg calls w).2 = view w := by
  induction calls generalizing w with
  | nil => rfl
  | cons c calls ih =>
    have hstep : view (handle cfg c.1 c.2 w).2 = view w := handle_blank h (hdry c List.mem_cons_self)
    unfold handleAll
    rw [Action.forEach_cons]
    rcases hr : handle cfg c.1 c.2 w with ⟨r, w'⟩
    rw [hr] at hstep
    cases r with
    | error e => exact hstep
    | ok u =>
      have hblank : Blank (view w') := by
        rw [hstep]
        exact h
      exact (ih (fun d hd => hdry d (List.mem_cons_of_mem c hd)) hblank).trans hstep

/-! ## What was seen stays seen -/

theorem executed_trace {env : Env} {event : Event} {op : WriteOperation} {v v' : View} {ok : Bool}
    (h : Executed cfg env event op v ok v') : v.trace.length ≤ v'.trace.length := by
  cases h with
  | refused => exact Nat.le_refl _
  | failed _ => simp [View.tell]
  | unannounced _ _ => simp [View.tell, View.finish]
  | completed _ _ => simp [View.tell, View.finish]

theorem handled_trace {env : Env} {event : Event} {v v' : View} {ok : Bool}
    (h : Handled cfg env event v ok v') : v.trace.length ≤ v'.trace.length := by
  cases h with
  | idle => exact Nat.le_refl _
  | unannounced _ _ => exact Nat.le_refl _
  | proposed _ _ _ => simp [View.tell, View.put]
  | retried _ _ hex => exact executed_trace hex
  | unapproved _ _ => exact Nat.le_refl _
  | approved _ _ _ _ hex =>
    refine Nat.le_trans ?_ (executed_trace hex)
    simp [View.tell, View.put]
  | unrejected _ _ => exact Nat.le_refl _
  | rejected _ _ _ _ => simp [View.tell, View.pop]

theorem handleAll_trace (calls : List (Env × Event)) (w : World) :
    w.trace.length ≤ (handleAll cfg calls w).2.trace.length := by
  induction calls generalizing w with
  | nil => exact Nat.le_refl _
  | cons c calls ih =>
    have hstep : w.trace.length ≤ (handle cfg c.1 c.2 w).2.trace.length := handled_trace (handle_spec w)
    unfold handleAll
    rw [Action.forEach_cons]
    rcases hr : handle cfg c.1 c.2 w with ⟨r, w'⟩
    rw [hr] at hstep
    cases r with
    | error e => exact hstep
    | ok u => exact Nat.le_trans hstep (ih w')

/-- A proposal that is accepted is announced, unless its dry run fails. -/
theorem propose_announced {env : Env} {event : Event} {w : World}
    (hok : (propose cfg env event w).1 = .ok ()) (hdry : ¬ DryRunFails env event) :
    w.trace.length < (propose cfg env event w).2.trace.length := by
  unfold propose at hok ⊢
  cases hout : (WriteRequest.ofKwargs event.payload >>= env.coordinator.request) with
  | error e =>
    rw [hout] at hok
    by_cases herp : e.isErpWriteError = true
    · exact absurd ⟨e, hout, herp⟩ hdry
    · have hr : record cfg env event (.error e) = Action.raise e := if_neg herp
      rw [hr] at hok
      cases hok
  | ok step =>
    rw [hout] at hok
    obtain ⟨w₁, hw₁⟩ : ∃ w₁ : World, w₁ = { w with
      self.pending := Function.update w.self.pending step.op.writeId (some step.op) } := ⟨_, rfl⟩
    have hr : record cfg env event (.ok step) w = emit cfg env step event.correlationId w₁ := by
      rw [hw₁]
      rfl
    rw [hr] at hok ⊢
    rcases emit_view cfg env event step w₁ with ⟨hbad, -, -⟩ | ⟨-, hview⟩
    · rw [hok] at hbad
      cases hbad
    · have htrace : (emit cfg env step event.correlationId w₁).2.trace =
          w.trace ++ [obsOf env event step] := by
        have := congrArg View.trace hview
        rw [hw₁] at this ⊢
        exact this
      rw [htrace, List.length_append, List.length_singleton]
      omega

/-- Accepted calls after which nothing was seen: every proposal failed its dry run. -/
theorem dryRunFails_of_trace {calls : List (Env × Event)} {w : World}
    (hok : (handleAll cfg calls w).1 = .ok ())
    (htrace : (handleAll cfg calls w).2.trace.length = w.trace.length) :
    ∀ c ∈ calls, c.2.subject = "forge.write.propose" → DryRunFails c.1 c.2 := by
  induction calls generalizing w with
  | nil => simp
  | cons c calls ih =>
    have hstep : w.trace.length ≤ (handle cfg c.1 c.2 w).2.trace.length := handled_trace (handle_spec w)
    unfold handleAll at hok htrace
    rw [Action.forEach_cons] at hok htrace
    rcases hr : handle cfg c.1 c.2 w with ⟨r, w'⟩
    rw [hr] at hok htrace hstep
    cases r with
    | error e => cases hok
    | ok u =>
      have hrest : w'.trace.length ≤ (handleAll cfg calls w').2.trace.length := handleAll_trace calls w'
      replace htrace : (handleAll cfg calls w').2.trace.length = w.trace.length := htrace
      replace hstep : w.trace.length ≤ w'.trace.length := hstep
      intro d hd hsub
      rcases List.mem_cons.mp hd with rfl | hd
      · by_contra hdry
        have hpropose : handle cfg d.1 d.2 w = propose cfg d.1 d.2 w := by
          unfold handle
          rw [if_pos hsub]
        rw [hpropose] at hr
        have hlt : w.trace.length < (propose cfg d.1 d.2 w).2.trace.length :=
          propose_announced (by rw [hr]) hdry
        rw [hr] at hlt
        replace hlt : w.trace.length < w'.trace.length := hlt
        omega
      · exact ih hok (by omega) d hd hsub

/-! ## The two paths -/

/-- For events of the write agent's subjects that `handle` accepts, the messages lead to what the direct
calls lead to if and only if every proposal among them fails its dry run. -/
theorem run_agrees_iff (hreg : cfg.rt.registry = .repository dir complaint)
    (calls : List (Env × Event)) (hsub : ∀ c ∈ calls, Subscribed c.2)
    (hok : (handleAll cfg calls { self := {} }).1 = .ok ()) :
    RunAgrees cfg calls ↔
      ∀ c ∈ calls, c.2.subject = "forge.write.propose" → DryRunFails c.1 c.2 := by
  unfold RunAgrees
  rw [runAll_view hreg hsub]
  constructor
  · intro h
    refine dryRunFails_of_trace hok ?_
    have htrace : (handleAll cfg calls { self := {} }).2.trace = [] := (congrArg View.trace h).symm
    rw [htrace]
  · intro hdry
    exact (handleAll_blank hdry ⟨rfl, rfl⟩).symm

theorem subscribed_orderProposal (total : Int) : Subscribed (orderProposal total) :=
  ⟨"forge.write.propose", by decide, rfl⟩

theorem subscribed_approval (writeId : String) : Subscribed (approval writeId) :=
  ⟨"forge.write.decision", by decide, rfl⟩

/-- The ERP cannot be read when the order is proposed, and the reviewer approves nevertheless. -/
def unreadableRun : List (Env × Event) :=
  [({ orderEnv "0" "w-1" (fun _ => .ok []) with
      coordinator := {
        writer := fun _ => .ok []
        reader := some fun _ => .error "down"
        clock := fun _ => "2026-01-01T00:00:00+00:00"
        newId := "w-1" } }, orderProposal 10),
    (orderEnv "1" "w-2" fun _ => .ok [], approval "w-1")]

/-- The hypotheses of `run_agrees_iff` hold for the run, and so does its condition. -/
theorem run_agrees_iff_unreadableRun : RunAgrees orderConfig unreadableRun := by
  refine (run_agrees_iff rfl unreadableRun ?_ rfl).mpr ?_
  · intro c hc
    rcases List.mem_cons.mp hc with rfl | hc
    · exact subscribed_orderProposal 10
    · obtain rfl := List.mem_singleton.mp hc
      exact subscribed_approval "w-1"
  · intro c hc hsub
    rcases List.mem_cons.mp hc with rfl | hc
    · exact ⟨.erpWriteError "down", rfl, rfl⟩
    · obtain rfl := List.mem_singleton.mp hc
      exact absurd hsub (by decide)

/-- The order is proposed, approved and written by direct calls, and stays unknown through the bus. -/
theorem orderRun_lost_on_bus :
    (∀ c ∈ orderRun, Subscribed c.2) ∧ (handleAll orderConfig orderRun { self := {} }).1 = .ok () ∧
      ¬ RunAgrees orderConfig orderRun := by
  have hsub : ∀ c ∈ orderRun, Subscribed c.2 := by
    intro c hc
    simp only [orderRun, List.mem_cons, List.not_mem_nil, or_false] at hc
    rcases hc with rfl | rfl | rfl
    · exact subscribed_orderProposal 10
    · exact subscribed_approval "w-1"
    · exact subscribed_approval "w-1"
  refine ⟨hsub, by decide +kernel, ?_⟩
  intro h
  unfold RunAgrees at h
  rw [runAll_view rfl hsub] at h
  have hlen : (handleAll orderConfig orderRun { self := {} }).2.trace.length ≠ 0 := by decide +kernel
  generalize (handleAll orderConfig orderRun { self := {} }).2 = w at h hlen
  have htrace : w.trace = [] := (congrArg View.trace h).symm
  rw [htrace] at hlen
  exact hlen rfl

end ForgeWriteAgent

end CaviErp

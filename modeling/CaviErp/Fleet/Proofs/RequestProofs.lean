import CaviErp.Fleet.Proofs.FlowProofs

/-!
# Requests that are refused

The repository has no contract for the subjects that most agents are asked by. Their requests are quarantined
before the agent sees them, so that of all agents the ledger and its reconciliation alone ever record an event.
-/

namespace CaviErp

open Py

/-- An event that breaks its contract makes no difference to the agent, and is at most published as a dead
letter. -/
structure Refused {σ ω ε : Type} (r : Except ε Unit × World σ ω) (w : World σ ω) : Prop where
  self : r.2.self = w.self
  trace : r.2.trace = w.trace
  events : r.2.store.events = w.store.events
  bus : r.2.bus = w.bus ∨ ∃ (event : Event) (text : String),
    r.2.bus = w.bus ++ [("deadletter." ++ event.subject.pyStr, text)]

namespace Refused

variable {σ ω : Type} (rt : Runtime) (infra : Infra)

theorem refl {ε : Type} (result : Except ε Unit) (w : World σ ω) : Refused (result, w) w :=
  ⟨rfl, rfl, rfl, .inl rfl⟩

theorem deadLetter (event : Event) (error : String) (w : World σ ω) :
    Refused (BaseAgent.deadLetter rt infra event error w) w := by
  have hevents : (w.store.recordDeadletter (BaseAgent.envelope event error)).events = w.store.events := by
    rcases EventStore.recordDeadletter_cases w.store (BaseAgent.envelope event error) with ⟨-, h⟩ | ⟨-, h⟩ <;>
      rw [h]
  rcases BaseAgent.deadLetter_cases rt infra event error w with ⟨e, he, -⟩ | ⟨e, he, -⟩ | he
  · rw [he]
    exact refl _ w
  · rw [he]
    exact ⟨rfl, rfl, hevents, .inl rfl⟩
  · rw [he]
    exact ⟨rfl, rfl, hevents, .inr ⟨event, _, rfl⟩⟩

/-- A message whose event breaks its contract. -/
theorem onMessage (handle : Event → Action (World σ ω) PyError Unit) {data : String}
    (h : ∀ event, BaseAgent.decode data = .ok event → ¬ MeetsContract rt event) (w : World σ ω) :
    Refused (BaseAgent.onMessage rt infra handle { data := data } w) w := by
  rcases onMessage_cases rt infra handle data w with
    ⟨e, -, hmessage⟩ | ⟨event, e, -, -, hmessage⟩ | ⟨event, hdecode, hvalid, -⟩
  · rw [hmessage]
    exact refl _ w
  · rw [hmessage]
    exact deadLetter rt infra event e.text w
  · exact absurd hvalid (h event hdecode)

/-- Only the outcome is translated. -/
theorem mapError {ε ε' : Type} {r : Except ε Unit × World σ ω} {w : World σ ω} (f : ε → ε') (h : Refused r w) :
    Refused (r.1.mapError f, r.2) w := ⟨h.self, h.trace, h.events, h.bus⟩

end Refused

theorem TickerAgent.onMessage_refused {σ : Type} (rt : Runtime) (cache : CacheBackend σ) (ttl : Int) (env : Env)
    {data : String} (h : ∀ event, BaseAgent.decode data = .ok event → ¬ MeetsContract rt event)
    (w : World σ) : Refused (onMessage rt cache ttl env { data := data } w) w := by
  unfold onMessage
  rw [if_neg (by simp)]
  simp only [Action.bind_apply, Action.ofExcept_apply]
  cases hdecode : BaseAgent.decode data with
  | error e => exact .refl _ w
  | ok event =>
    show Refused (dispatch rt cache ttl env event w) w
    unfold dispatch
    cases hvalid : rt.registry.validate event.subject event.schemaVersion event.payload with
    | ok u => exact absurd hvalid (h event hdecode)
    | error e =>
      dsimp only
      split
      · exact (Refused.deadLetter rt env.infra event e.text w).mapError Failure.py
      · exact .refl _ w

/-- Without a request the report agent records nothing. -/
theorem BeaconReportAgent.handle_of_outcome (cfg : Config) (env : Env) {event : Event}
    (h : event.subject ≠ reportRequest) (w : World) :
    (handle cfg env event w).2.store = w.store := by
  unfold handle
  rw [if_neg h]
  rfl

namespace Fleet

variable {f : Fleet}

/-! ## One message -/

theorem requestSubjects_worked {channel : String} (h : channel ∈ requestSubjects) :
    channel ∈ workingSubjects := by
  have hall : ∀ s ∈ requestSubjects, s ∈ workingSubjects := by
    decide +kernel
  exact hall channel h

theorem mem_requestSubjects {a : AgentName} (ha : a ∈ triggered) {channel : String} (h : channel ∈ subjects a) :
    channel ∈ requestSubjects :=
  List.mem_flatMap.mpr ⟨a, ha, h⟩

/-- No request subject has a contract. -/
theorem contractsNamed_request {channel : String} (h : channel ∈ requestSubjects) :
    contractsNamed (channel ++ ".v") = [] := by
  have hall : ∀ s ∈ requestSubjects, contractsNamed (s ++ ".v") = [] := by
    decide +kernel
  exact hall channel h

/-- What agents other than those that are triggered publish is no request. -/
theorem not_request_of_topic {a : AgentName} (ha : a ∉ triggered) {topic : List String} (htopic : topic ∈ topics a)
    {s : String} (hs : s ∈ topic) : s ∉ requestSubjects := by
  have hall : ∀ a ∉ triggered, ∀ topic ∈ topics a, ∀ s ∈ topic, s ∉ requestSubjects := by
    decide +kernel
  exact hall a ha topic htopic s hs

section Repository

variable (dir : String) (complaint : Schema → Json → String)

/-- What an agent that is triggered makes of a request. -/
theorem request_refused {a : AgentName} (ha : a ∈ triggered) (env : Env a) {m : String × String}
    (hchannel : m.1 ∈ subjects a) (hnamed : Named m)
    (w : World (Self (f.overRepository dir complaint).backends a) (Obs a)) :
    Refused ((f.overRepository dir complaint).onMessage a env { data := m.2 } w) w := by
  have hrequest := mem_requestSubjects ha hchannel
  have hbad : ∀ event, BaseAgent.decode m.2 = .ok event →
      ¬ MeetsContract (f.overRepository dir complaint).rt event := by
    intro event hdecode hvalid
    have hsubject : event.subject = .str m.1 := hnamed hrequest event (by rw [heard, hdecode]; rfl)
    refine subject_ne_of_contract hvalid (contractsNamed_request hrequest) ?_
    rw [hsubject]
    rfl
  cases a with
  | forge => exact (Refused.onMessage _ env.infra _ hbad w).mapError _
  | forgeWrite => exact (Refused.onMessage _ env.infra _ hbad w).mapError _
  | ledgerQuery => exact (Refused.onMessage _ env.infra _ hbad w).mapError _
  | mapper => exact (Refused.onMessage _ env.infra _ hbad w).mapError _
  | erpMapper => exact (Refused.onMessage _ env.infra _ hbad w).mapError _
  | ticker => exact TickerAgent.onMessage_refused _ _ _ env hbad w
  | tickerWebhook => exact (Refused.onMessage _ env.infra _ hbad w).mapError _
  | vault => exact (Refused.onMessage _ env.infra _ hbad w).mapError _
  | ledger => exact absurd ha (by decide)
  | ledgerReconcile => exact absurd ha (by decide)
  | beacon => exact absurd ha (by decide)
  | beaconReport => exact absurd ha (by decide)

/-- What is published for a message is no request that bears another name. -/
theorem react_named {a : AgentName} (env : Env a) {m : String × String} (hchannel : m.1 ∈ subjects a)
    (hnamed : Named m) (s : (f.overRepository dir complaint).network.State a) (store : EventStore) :
    ∀ post ∈ ((f.overRepository dir complaint).network.react a env m s store).sent, Named post := by
  intro post hpost hrequest
  exfalso
  have hworked := requestSubjects_worked hrequest
  by_cases ha : a ∈ triggered
  · have hrefused := request_refused (f := f) dir complaint ha env hchannel hnamed
      { self := s.1, store := store, trace := s.2 }
    rcases hrefused.bus with hbus | ⟨event, text, hbus⟩
    · rw [show ((f.overRepository dir complaint).network.react a env m s store).sent = [] from hbus] at hpost
      cases hpost
    · rw [show ((f.overRepository dir complaint).network.react a env m s store).sent =
        [("deadletter." ++ event.subject.pyStr, text)] from hbus] at hpost
      rw [List.mem_singleton.mp hpost] at hworked
      exact deadletter_not_worked _ hworked
  · rcases sent_cases hpost with ⟨event, -, ⟨cause, -, kind, hkind, hevent⟩, rfl⟩ | ⟨event, error, -, rfl⟩
    · rw [repertoire, if_neg fun h => ha (by rw [h]; decide)] at hkind
      obtain ⟨topic, htopic, rfl⟩ := List.mem_map.mp hkind
      obtain ⟨s, hs, hsubject⟩ := hevent.subject
      rw [hsubject] at hrequest
      exact not_request_of_topic ha htopic hs hrequest
    · exact deadletter_not_worked _ hworked

/-- What the store has of events that it did not have at first, the ledger and its reconciliation recorded. -/
def LedgerOnly (first store : EventStore) : Prop :=
  ∀ e ∈ store.events, e ∈ first.events ∨ ∃ s ∈ ledgerTopics, e.subject = .str s

theorem LedgerOnly.after {first store : EventStore} (h : LedgerOnly first store) {sha256 : String → String}
    {acts : List Act} (hacts : ∀ e ∈ acts.filterMap Act.event?, ∃ s ∈ ledgerTopics, e.subject = .str s) :
    LedgerOnly first (acts.foldl (Act.inStore sha256) store) := by
  induction acts generalizing store with
  | nil => exact h
  | cons act acts ih =>
    have hrecord : ∀ event, act.event? = some event → LedgerOnly first (store.recordEvent sha256 event) := by
      intro event hevent e he
      rcases EventStore.recordEvent_cases sha256 store event with ⟨-, hs⟩ | ⟨-, hs, -⟩
      · rw [hs] at he
        exact h e he
      · rw [hs, List.mem_append, List.mem_singleton] at he
        rcases he with he | rfl
        · exact h e he
        · exact .inr (hacts e (List.mem_filterMap.mpr ⟨act, List.mem_cons_self, hevent⟩))
    have hquarantine : ∀ envelope, LedgerOnly first (store.recordDeadletter envelope) := by
      intro envelope e he
      rcases EventStore.recordDeadletter_cases store envelope with ⟨-, hs⟩ | ⟨-, hs⟩ <;>
        · rw [hs] at he
          exact h e he
    have hfirst : LedgerOnly first (act.inStore sha256 store) := by
      cases act with
      | recorded event => exact hrecord event rfl
      | emitted event => exact hrecord event rfl
      | quarantined event error => exact hquarantine _
      | deadLettered event error => exact hquarantine _
    refine ih hfirst fun e he => hacts e ?_
    obtain ⟨act', hact', hevent⟩ := List.mem_filterMap.mp he
    exact List.mem_filterMap.mpr ⟨act', List.mem_cons_of_mem _ hact', hevent⟩

/-- What a reaction records, the ledger or its reconciliation records. -/
theorem react_ledgerOnly {a : AgentName} (env : Env a) {m : String × String} (hchannel : m.1 ∈ subjects a)
    (hnamed : Named m) (s : (f.overRepository dir complaint).network.State a) {first store : EventStore}
    (h : LedgerOnly first store) :
    LedgerOnly first ((f.overRepository dir complaint).network.react a env m s store).shared := by
  by_cases ha : a ∈ triggered
  · have hevents := (request_refused (f := f) dir complaint ha env hchannel hnamed
      { self := s.1, store := store, trace := s.2 }).events
    intro e he
    exact h e (hevents ▸ he)
  · obtain ⟨acts, hshared, -, hlawful⟩ := react_acts (f := f.overRepository dir complaint) a env m s store
    have hledger : (∀ topic ∈ topics a, ∀ s ∈ topic, s ∈ ledgerTopics) →
        LedgerOnly first ((f.overRepository dir complaint).network.react a env m s store).shared := by
      intro htopics
      rw [hshared]
      refine h.after fun e he => ?_
      obtain ⟨cause, -, kind, hkind, hof⟩ := kind_of_lawful hlawful he
      rw [repertoire, if_neg fun h => ha (by rw [h]; decide)] at hkind
      obtain ⟨topic, htopic, rfl⟩ := List.mem_map.mp hkind
      obtain ⟨s, hs, hsubject⟩ := hof.subject
      exact ⟨s, htopics topic htopic s hs, hsubject⟩
    cases a with
    | ledger => exact hledger (by decide)
    | ledgerReconcile => exact hledger (by decide)
    | beacon => exact hledger (by decide)
    | beaconReport =>
      -- a report is made for a request alone, which has no contract
      rcases onMessage_cases (f.overRepository dir complaint).rt env.infra
          (BeaconReportAgent.handle ⟨(f.overRepository dir complaint).rt, f.defaultTargets⟩ env) m.2
          { self := s.1, store := store, trace := s.2 } with
        ⟨e, -, hmessage⟩ | ⟨event, e, -, -, hmessage⟩ | ⟨event, -, hvalid, hmessage⟩
      · have hstore := congrArg (fun r => r.2.store) hmessage
        intro e he
        exact h e ((congrArg EventStore.events hstore) ▸ he)
      · have hstore := congrArg (fun r => r.2.store.events) hmessage
        have hevents := (Refused.deadLetter (f.overRepository dir complaint).rt env.infra event e.text
          (World.mk (σ := List Json) (ω := Event) s.1 store [] s.2)).events
        intro e he
        exact h e ((hstore.trans hevents) ▸ he)
      · have hne : event.subject ≠ BeaconReportAgent.reportRequest := by
          intro hsubject
          refine subject_ne_of_contract hvalid (s := "beacon.report.request") (by decide) ?_
          rw [hsubject]
          rfl
        have hstore := (congrArg (fun r => r.2.store) hmessage).trans
          (BeaconReportAgent.handle_of_outcome _ env hne _)
        intro e he
        exact h e ((congrArg EventStore.events hstore) ▸ he)
    | forge => exact absurd (by decide) ha
    | forgeWrite => exact absurd (by decide) ha
    | ledgerQuery => exact absurd (by decide) ha
    | mapper => exact absurd (by decide) ha
    | erpMapper => exact absurd (by decide) ha
    | ticker => exact absurd (by decide) ha
    | tickerWebhook => exact absurd (by decide) ha
    | vault => exact absurd (by decide) ha

/-! ## Runs -/

/-- The agents that are triggered are as they were or as restarts leave them, and nothing was seen of them. -/
structure Untouched (selves : ∀ a, Self (f.overRepository dir complaint).backends a) (first : EventStore)
    (c : (f.overRepository dir complaint).network.Config) : Prop where
  posted : c.Posted
  named : ∀ l ∈ c.sent, Named l.body
  states : ∀ a ∈ triggered, ∃ n, c.state a = (((f.overRepository dir complaint).kept a)^[n] (selves a), [])
  events : LedgerOnly first c.shared

variable {dir complaint} {selves : ∀ a, Self (f.overRepository dir complaint).backends a} {first : EventStore}
  {c : (f.overRepository dir complaint).network.Config}

open Bus.Network.Config in
theorem Untouched.deliver (h : Untouched dir complaint selves first c)
    {step : (f.overRepository dir complaint).network.Step}
    {x : (f.overRepository dir complaint).network.Activation} (hx : c.activation step = some x) :
    Untouched dir complaint selves first (c.step step) := by
  obtain ⟨k, -, hstep⟩ := step_of_active hx
  obtain ⟨_, -, -, hmem, hbefore⟩ := activation_eq_some hx
  obtain ⟨hsent, hhears⟩ := h.posted x.who x.letter (List.mem_of_getElem? hmem)
  have hchannel : x.letter.body.1 ∈ subjects x.who := List.contains_iff_mem.mp hhears
  have hnamed := h.named x.letter hsent
  refine ⟨h.posted.step step, fun l hl => ?_, fun a ha => ?_, ?_⟩
  · rw [hstep] at hl
    rcases List.mem_append.mp hl with hl | hl
    · exact h.named l hl
    · obtain ⟨post, hpost, rfl⟩ := List.mem_map.mp hl
      exact react_named (f := f) dir complaint x.input hchannel hnamed _ _ post hpost
  · have hstate : (c.step step).state a = Function.update c.state x.who x.reaction.state a := by
      rw [hstep]
      rfl
    rw [hstate]
    by_cases hwho : a = x.who
    · subst hwho
      obtain ⟨n, hn⟩ := h.states x.who ha
      have hrefused := request_refused (f := f) dir complaint ha x.input hchannel hnamed
        { self := (x.before.state x.who).1, store := x.before.shared, trace := (x.before.state x.who).2 }
      have hself : x.reaction.state.1 = (x.before.state x.who).1 := hrefused.self
      have htrace : x.reaction.state.2 = (x.before.state x.who).2 := hrefused.trace
      rw [hbefore, hn] at hself htrace
      refine ⟨n, ?_⟩
      rw [Function.update_self]
      exact Prod.ext hself htrace
    · rw [Function.update_of_ne hwho]
      exact h.states a ha
  · have hshared : (c.step step).shared = x.reaction.shared := by
      rw [hstep]
      rfl
    rw [hshared]
    refine react_ledgerOnly (f := f) dir complaint x.input hchannel hnamed _ ?_
    rw [hbefore]
    exact h.events

open Bus.Network.Config in
theorem Untouched.step (h : Untouched dir complaint selves first c)
    {step : (f.overRepository dir complaint).network.Step} (hnamed : ∀ m, step = .inject m → Named m) :
    Untouched dir complaint selves first (c.step step) := by
  cases hx : c.activation step with
  | some x => exact h.deliver hx
  | none =>
    have hposted := h.posted.step step
    cases step with
    | inject m =>
      refine ⟨hposted, fun l hl => ?_, h.states, h.events⟩
      rcases List.mem_append.mp hl with hl | hl
      · exact h.named l hl
      · rw [List.mem_singleton.mp hl]
        exact hnamed m rfl
    | deliver a k env =>
      rw [step_deliver_of_none hx]
      exact h
    | lose a k => exact ⟨hposted, h.named, h.states, h.events⟩
    | stop a => exact ⟨hposted, h.named, h.states, h.events⟩
    | start a =>
      refine ⟨hposted, h.named, fun b hb => ?_, h.events⟩
      obtain ⟨n, hn⟩ := h.states b hb
      show ∃ n, Function.update c.state a ((f.overRepository dir complaint).network.reboot a (c.state a)) b =
        (((f.overRepository dir complaint).kept b)^[n] (selves b), [])
      by_cases hab : b = a
      · subst hab
        refine ⟨n + 1, ?_⟩
        rw [Function.update_self, hn, Function.iterate_succ_apply']
      · rw [Function.update_of_ne hab]
        exact ⟨n, hn⟩

theorem Untouched.run (h : Untouched dir complaint selves first c)
    {steps : List (f.overRepository dir complaint).network.Step} (hnamed : ∀ m, .inject m ∈ steps → Named m) :
    Untouched dir complaint selves first (c.run steps) := by
  induction steps generalizing c with
  | nil => exact h
  | cons step steps ih =>
    have hfirst : ∀ m, step = .inject m → Named m := fun m hm => hnamed m (hm ▸ List.mem_cons_self)
    exact ih (h.step hfirst) fun m hm => hnamed m (List.mem_cons_of_mem _ hm)

/-- **With the repository's schemas, of all agents only the ledger and its reconciliation get to record an
event.** In every run whose requests are on the channels of their subjects, the other eight that are asked by
messages stay as they were, but for restarts, and nothing is seen of them: no event, and no call of the ERP. -/
theorem only_ledger_records (f : Fleet) (dir : String) (complaint : Schema → Json → String)
    (selves : ∀ a, Self (f.overRepository dir complaint).backends a) (store : EventStore)
    (running : AgentName → Bool) (steps : List (f.overRepository dir complaint).network.Step)
    (hnamed : ∀ m, .inject m ∈ steps → Named m) :
    (∀ e ∈ (((f.overRepository dir complaint).start selves store running).run steps).shared.events,
        e ∈ store.events ∨ ∃ s ∈ ledgerTopics, e.subject = .str s) ∧
      ∀ a ∈ triggered, ∃ n, (((f.overRepository dir complaint).start selves store running).run steps).state a =
        (((f.overRepository dir complaint).kept a)^[n] (selves a), []) := by
  have hstart : Untouched dir complaint selves store
      ((f.overRepository dir complaint).start selves store running) := by
    refine ⟨start_posted selves store running, ?_, fun a _ => ⟨0, rfl⟩, fun e he => .inl he⟩
    intro l hl
    cases hl
  have hrun := hstart.run hnamed
  exact ⟨hrun.events, hrun.states⟩

end Repository

/-- A work order on its channel. -/
def workOrder : Event where
  subject := "forge.workorder"
  schemaVersion := .int 1
  source := "shop"
  id := "00000000-0000-0000-0000-000000000030"
  payload := .obj []

/-- The work order comes from outside and is delivered to Forge. -/
def workOrderRun : List (localFleet.overRepository "schemas" fun _ _ => "").network.Step :=
  [.inject (postOf workOrder), .deliver .forge 0 ({ uuid := id } : ForgeAgent.Env)]

theorem only_ledger_records_workorder :
    ((((localFleet.overRepository "schemas" fun _ _ => "").start newborn {} fun _ => true).history
        workOrderRun).map fun x => x.who) = [.forge] ∧
      (∀ e ∈ (((localFleet.overRepository "schemas" fun _ _ => "").start newborn {} fun _ => true).run
          workOrderRun).shared.events, e ∈ ({} : EventStore).events ∨ ∃ s ∈ ledgerTopics, e.subject = .str s) ∧
      ∀ a ∈ triggered, ∃ n, (((localFleet.overRepository "schemas" fun _ _ => "").start newborn {} fun _ => true).run
        workOrderRun).state a =
          (((localFleet.overRepository "schemas" fun _ _ => "").kept a)^[n] (newborn a), []) := by
  refine ⟨rfl, only_ledger_records localFleet "schemas" (fun _ _ => "") newborn {} (fun _ => true)
    workOrderRun ?_⟩
  intro m hm hrequest event hevent
  obtain rfl : m = postOf workOrder := by simpa [workOrderRun] using hm
  have hread : BaseAgent.decode (postOf workOrder).2 = .ok workOrder.reread := BaseAgent.decode_toDict workOrder
  rw [heard, hread] at hevent
  rw [← Option.some.inj hevent]
  rfl

end Fleet

end CaviErp

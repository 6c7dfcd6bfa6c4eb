import CaviErp.Base.Proofs.AgentProofs
import CaviErp.Beacon.Agent

/-!
# Beacon as a sink

What Beacon does with one message, and from it what becomes of a backlog. Beacon publishes nothing about
an event that meets its contract; any other it quarantines like every agent, on a channel that it may
subscribe to itself.
-/

namespace CaviErp

open Py

namespace BeaconAgent

variable {δ : Type} {cfg : Config δ} {dir : String} {complaint : Schema → Json → String}

/-! ## One message -/

theorem isDuplicate_apply (env : Env) (alert : Alert) (w : World δ) :
    isDuplicate cfg env alert w =
      (.ok (cfg.dedup.isDuplicate alert.dedupKey cfg.beacon.dedupWindow env.now w.self).1,
        { w with
          self := (cfg.dedup.isDuplicate alert.dedupKey cfg.beacon.dedupWindow env.now w.self).2 }) :=
  rfl

/-- An alert is either dispatched or suppressed, and nothing is published. -/
theorem notify_of_classify {env : Env} {subject payload correlationId : Json} {alert : Alert}
    (h : classify subject payload correlationId = .ok alert) (w : World δ) :
    (notify cfg env subject payload correlationId w).1 = .ok () ∧
      (notify cfg env subject payload correlationId w).2.bus = w.bus ∧
      ((notify cfg env subject payload correlationId w).2.trace =
          w.trace ++ [.alerted alert (cfg.beacon.targets alert.severity)] ∨
        (notify cfg env subject payload correlationId w).2.trace = w.trace ++ [.suppressed alert]) := by
  unfold notify
  simp only [Action.bind_apply, Action.ofExcept_apply, h, isDuplicate_apply]
  cases (cfg.dedup.isDuplicate alert.dedupKey cfg.beacon.dedupWindow env.now w.self).1 with
  | true => exact ⟨rfl, rfl, .inr rfl⟩
  | false => exact ⟨rfl, rfl, .inl rfl⟩

theorem notify_of_unclassified {env : Env} {subject payload correlationId : Json} {e : PyError}
    (h : classify subject payload correlationId = .error e) (w : World δ) :
    notify cfg env subject payload correlationId w = (.error e, w) := by
  unfold notify
  simp only [Action.bind_apply, Action.ofExcept_apply, h]

theorem onMessage_of_contracted (hreg : cfg.rt.registry = .repository dir complaint) (env : Env)
    {m : Message} (hm : Contracted cfg m) (w : World δ) :
    (BaseAgent.onMessage cfg.rt env.infra (handle cfg env) m w).1 = .ok () ∧
      (BaseAgent.onMessage cfg.rt env.infra (handle cfg env) m w).2.bus = w.bus := by
  by_cases htype : m.type = "message"
  · obtain ⟨event, hdecode, hv⟩ := hm htype
    have hv' := hv
    rw [hreg] at hv'
    obtain ⟨s, o, hs, ho⟩ := shape_of_validate hv'
    rw [BaseAgent.onMessage_of_decode cfg.rt env.infra htype hdecode,
      BaseAgent.dispatch_of_valid cfg.rt env.infra hv]
    unfold handle
    rw [hs, ho]
    obtain ⟨alert, halert⟩ : ∃ alert, classify (.str s) (.obj o) event.correlationId = .ok alert :=
      ⟨_, rfl⟩
    obtain ⟨hok, hbus, -⟩ := notify_of_classify halert w
    exact ⟨hok, hbus⟩
  · unfold BaseAgent.onMessage
    rw [if_pos htype]
    exact ⟨rfl, rfl⟩

theorem contracted_of_onMessage {env : Env} (hinfra : env.infra = .healthy) {m : Message} {w : World δ}
    (hok : (BaseAgent.onMessage cfg.rt env.infra (handle cfg env) m w).1.isOk = true)
    (hbus : (BaseAgent.onMessage cfg.rt env.infra (handle cfg env) m w).2.bus = w.bus) :
    Contracted cfg m := by
  intro htype
  cases hdecode : BaseAgent.decode m.data with
  | error e =>
    unfold BaseAgent.onMessage at hok
    rw [if_neg (not_not.mpr htype), hdecode] at hok
    cases hok
  | ok event =>
    refine ⟨event, rfl, ?_⟩
    cases hv : cfg.rt.registry.validate event.subject event.schemaVersion event.payload with
    | ok u => rfl
    | error e =>
      -- the dead letter is one more message on the bus
      rw [BaseAgent.onMessage_of_decode cfg.rt env.infra htype hdecode,
        BaseAgent.dispatch_of_invalid cfg.rt env.infra hv, hinfra, BaseAgent.deadLetter_healthy] at hbus
      have hlen := congrArg List.length hbus
      simp [World.published, World.quarantined] at hlen

/-! ## A backlog -/

theorem arrivals_of_bus {w w' : World δ} (h : w'.bus = w.bus) : arrivals w w' = [] := by
  simp [arrivals, h]

theorem steps_cons (s : System δ) (env : Env) (envs : List Env) :
    System.steps cfg s (env :: envs) = System.steps cfg (System.step cfg s env) envs := rfl

theorem step_of_silent {w : World δ} {m : Message} {rest : List Message} {env : Env}
    (hok : (BaseAgent.onMessage cfg.rt env.infra (handle cfg env) m w).1 = .ok ())
    (hbus : (BaseAgent.onMessage cfg.rt env.infra (handle cfg env) m w).2.bus = w.bus) :
    System.step cfg { world := w, inFlight := m :: rest } env =
      { world := (BaseAgent.onMessage cfg.rt env.infra (handle cfg env) m w).2, inFlight := rest } := by
  simp only [System.step, arrivals_of_bus hbus, List.append_nil, hok]
  rfl

theorem steps_nil (w : World δ) (envs : List Env) :
    System.steps cfg { world := w, inFlight := [] } envs = { world := w, inFlight := [] } := by
  induction envs with
  | nil => rfl
  | cons env envs ih => exact ih

theorem drains_of_contracted (hreg : cfg.rt.registry = .repository dir complaint) {w : World δ}
    {backlog : List Message} (h : ∀ m ∈ backlog, Contracted cfg m) : Drains cfg w backlog := by
  intro envs
  induction envs generalizing w backlog with
  | nil => exact ⟨rfl, rfl, rfl⟩
  | cons env envs ih =>
    cases backlog with
    | nil =>
      rw [steps_nil]
      exact ⟨rfl, rfl, rfl⟩
    | cons m rest =>
      obtain ⟨hok, hbus⟩ := onMessage_of_contracted hreg env (h m List.mem_cons_self) w
      rw [steps_cons, step_of_silent hok hbus]
      have hrest : ∀ m' ∈ rest, Contracted cfg m' := fun m' hm' => h m' (List.mem_cons_of_mem m hm')
      obtain ⟨hbus', hflight, hrun⟩ := ih hrest
      exact ⟨hbus'.trans hbus, hflight, hrun⟩

/-- The first message of a backlog that Beacon drains is taken in, and so is the rest. -/
theorem Drains.uncons {w : World δ} {m : Message} {rest : List Message}
    (h : Drains cfg w (m :: rest)) : Contracted cfg m ∧ ∃ w', Drains cfg w' rest := by
  -- one step under a store and a bus that work
  let env : Env := { now := 0 }
  obtain ⟨hbus, -, hrun⟩ := h [env]
  have hok : (BaseAgent.onMessage cfg.rt env.infra (handle cfg env) m w).1.isOk = true := hrun
  replace hbus : (BaseAgent.onMessage cfg.rt env.infra (handle cfg env) m w).2.bus = w.bus := hbus
  refine ⟨contracted_of_onMessage rfl hok hbus,
    (BaseAgent.onMessage cfg.rt env.infra (handle cfg env) m w).2, ?_⟩
  intro envs
  have hok' : (BaseAgent.onMessage cfg.rt env.infra (handle cfg env) m w).1 = .ok () := by
    cases hr : (BaseAgent.onMessage cfg.rt env.infra (handle cfg env) m w).1 with
    | ok u => rfl
    | error e =>
      rw [hr] at hok
      cases hok
  have hsteps := h (env :: envs)
  rw [steps_cons, step_of_silent hok' hbus] at hsteps
  obtain ⟨hbus', hflight, hrun'⟩ := hsteps
  exact ⟨hbus'.trans hbus.symm, hflight, hrun'⟩

theorem contracted_of_drains {w : World δ} {backlog : List Message} (h : Drains cfg w backlog) :
    ∀ m ∈ backlog, Contracted cfg m := by
  induction backlog generalizing w with
  | nil => simp
  | cons m rest ih =>
    obtain ⟨hm, w', hrest⟩ := h.uncons
    intro m' hm'
    rcases List.mem_cons.mp hm' with rfl | hm'
    · exact hm
    · exact ih hrest m' hm'

/-- Beacon is a sink for a backlog, whatever state it is in, if and only if each message of it carries
an event that meets its registered contract. -/
theorem drains_iff (hreg : cfg.rt.registry = .repository dir complaint) (w : World δ)
    (backlog : List Message) : Drains cfg w backlog ↔ ∀ m ∈ backlog, Contracted cfg m :=
  ⟨contracted_of_drains, drains_of_contracted hreg⟩

/-! ## A dead letter that comes back -/

/-- Beacon reads a dead letter of its own: it quarantines the event once more, on the same channel. -/
theorem step_of_deadLetter {event : Event} {e : PyError} (hread : event.reread = event)
    (hbad : cfg.rt.registry.validate event.subject event.schemaVersion event.payload = .error e)
    (hsub : subjects.contains ("deadletter." ++ event.subject.pyStr) = true) (w : World δ) (now : ℚ) :
    ∃ w', System.step cfg { world := w, inFlight := [.ofDict (BaseAgent.envelope event e.text)] }
        { now } = { world := w', inFlight := [.ofDict (BaseAgent.envelope event e.text)] } ∧
      w'.bus.length = w.bus.length + 1 := by
  have hdecode := BaseAgent.decode_envelope event e.text
  rw [hread] at hdecode
  have honce : BaseAgent.onMessage cfg.rt .healthy (handle cfg { now })
      (.ofDict (BaseAgent.envelope event e.text)) w =
      (.ok (), (w.quarantined (BaseAgent.envelope event e.text)).published
        ("deadletter." ++ event.subject.pyStr)
        (dumps .default (.obj (BaseAgent.envelope event e.text)))) := by
    rw [BaseAgent.onMessage_of_decode cfg.rt .healthy rfl hdecode,
      BaseAgent.dispatch_of_invalid cfg.rt .healthy hbad, BaseAgent.deadLetter_healthy]
  refine ⟨(w.quarantined (BaseAgent.envelope event e.text)).published
    ("deadletter." ++ event.subject.pyStr) (dumps .default (.obj (BaseAgent.envelope event e.text))),
    ?_, ?_⟩
  · simp only [System.step, honce]
    simp only [arrivals, World.published, World.quarantined, List.drop_left, List.filter_cons, hsub,
      if_true, List.filter_nil, List.map_cons, List.map_nil, List.nil_append]
    rfl
  · simp [World.published, World.quarantined]

theorem deadLetter_circulates {event : Event} {e : PyError} (hread : event.reread = event)
    (hbad : cfg.rt.registry.validate event.subject event.schemaVersion event.payload = .error e)
    (hsub : subjects.contains ("deadletter." ++ event.subject.pyStr) = true) (w : World δ) (n : Nat) :
    (System.steps cfg { world := w, inFlight := [.ofDict (BaseAgent.envelope event e.text)] }
        (List.replicate n { now := 0 })).inFlight = [.ofDict (BaseAgent.envelope event e.text)] ∧
      (System.steps cfg { world := w, inFlight := [.ofDict (BaseAgent.envelope event e.text)] }
        (List.replicate n { now := 0 })).world.bus.length = w.bus.length + n := by
  induction n generalizing w with
  | zero => exact ⟨rfl, rfl⟩
  | succ n ih =>
    obtain ⟨w', hstep, hbus⟩ := step_of_deadLetter hread hbad hsub w 0
    rw [List.replicate_succ, steps_cons, hstep]
    obtain ⟨hflight, hbus'⟩ := ih w'
    exact ⟨hflight, by omega⟩

/-- Beacon with the dedup store of a single process. -/
def localConfig : Config (String → Option ℚ) where
  rt := .repository "schema_registry/schemas" (fun _ _ => "'entry_id' is a required property") fun m => m
  dedup := inMemoryDedupStore

def localWorld : World (String → Option ℚ) := { self := fun _ => none }

def postedFact : Event where
  subject := "ledger.posted"
  schemaVersion := .int 1
  source := "ledger"
  id := "00000000-0000-0000-0000-00000000000c"
  tenantId := "acme"
  payload := .obj
    [("entry_id", "e-1"), ("currency", "USD"), ("total_minor", .int 2500), ("line_count", .int 2)]

/-- The hypothesis of `drains_iff` holds for Beacon, and its condition for a posting seen twice. -/
theorem drains_iff_postedFact :
    Drains localConfig localWorld [.ofDict postedFact.toDict, .ofDict postedFact.toDict] := by
  refine (drains_iff rfl localWorld _).mpr ?_
  intro m hm _
  obtain rfl : m = .ofDict postedFact.toDict := by simpa using hm
  exact ⟨postedFact.reread, BaseAgent.decode_toDict postedFact, rfl⟩

def brokenEntry : Event where
  subject := "ledger.entry"
  schemaVersion := .int 1
  source := "console"
  id := "00000000-0000-0000-0000-00000000000d"
  tenantId := "acme"
  payload := .obj [("currency", "USD")]

/-- The message Ledger publishes about it on `deadletter.ledger.entry`. -/
def brokenEntryLetter : Message :=
  .ofDict (BaseAgent.envelope brokenEntry "'entry_id' is a required property")

theorem brokenEntry_invalid :
    localConfig.rt.registry.validate brokenEntry.subject brokenEntry.schemaVersion
      brokenEntry.payload = .error (.validationError "'entry_id' is a required property") := by
  decide +kernel

/-- Beacon republishes the dead letter to itself, over and over. -/
theorem brokenEntryLetter_circulates :
    (∀ n, (System.steps localConfig { world := localWorld, inFlight := [brokenEntryLetter] }
      (List.replicate n { now := 0 })).inFlight = [brokenEntryLetter]) ∧
      ¬ Drains localConfig localWorld [brokenEntryLetter] := by
  refine ⟨fun n => (deadLetter_circulates rfl brokenEntry_invalid rfl localWorld n).1, ?_⟩
  intro h
  obtain ⟨event, hdecode, hv⟩ := contracted_of_drains h brokenEntryLetter List.mem_cons_self rfl
  have hread : BaseAgent.decode brokenEntryLetter.data = .ok brokenEntry :=
    BaseAgent.decode_envelope brokenEntry "'entry_id' is a required property"
  obtain rfl : brokenEntry = event := Except.ok.inj (hread.symm.trans hdecode)
  rw [brokenEntry_invalid] at hv
  cases hv

end BeaconAgent

end CaviErp

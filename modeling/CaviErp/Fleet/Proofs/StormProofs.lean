import CaviErp.Fleet.Flow

/-!
# A dead letter with two watchers

A ledger entry that breaks its contract is quarantined by the ledger, and its dead letter breaks the contract
too: each watcher that reads it quarantines it again, for both of them.
-/

namespace CaviErp

open Py

namespace Fleet

variable {f : Fleet} {event : Event} {e : PyError}

/-- The dead letter of the event. -/
def deadLetterPost (event : Event) (e : PyError) : String × String :=
  ("deadletter." ++ event.subject.pyStr, dumps .default (.obj (BaseAgent.envelope event e.text)))

/-- An agent that reads an event which breaks its contract publishes its dead letter, and lives on. -/
theorem onMessage_quarantines {σ ω : Type} (handle : Event → Action (World σ ω) PyError Unit)
    (hbad : f.rt.registry.validate event.subject event.schemaVersion event.payload = .error e)
    {data : String} (hdecode : BaseAgent.decode data = .ok event) (w : World σ ω) :
    BaseAgent.onMessage f.rt .healthy handle { data := data } w =
      (.ok (), (w.quarantined (BaseAgent.envelope event e.text)).published (deadLetterPost event e).1
        (deadLetterPost event e).2) := by
  rw [BaseAgent.onMessage_of_decode f.rt .healthy rfl hdecode,
    BaseAgent.dispatch_of_invalid f.rt .healthy hbad, BaseAgent.deadLetter_healthy]
  rfl

/-- The watchers run, and have nothing to read but dead letters of the event. -/
structure Stormy (f : Fleet) (event : Event) (c : f.network.Config) : Prop where
  beacon : c.running .beacon = true
  beaconReport : c.running .beaconReport = true
  letters : ∀ a, isWatcher a = true → ∀ l ∈ c.inbox a, BaseAgent.decode l.body.2 = .ok event

/-- What a watcher makes of a dead letter. -/
theorem react_watcher
    (hbad : f.rt.registry.validate event.subject event.schemaVersion event.payload = .error e)
    {s : f.network.Step} (hs : IsRead s) {c : f.network.Config} {x : f.network.Activation}
    (hx : c.activation s = some x) (hdecode : BaseAgent.decode x.letter.body.2 = .ok event) :
    x.reaction.sent = [deadLetterPost event e] ∧ x.reaction.alive = true := by
  obtain ⟨k, rfl, -⟩ := Bus.Network.Config.activation_eq_some hx
  obtain ⟨before, who, letter, env⟩ := x
  cases hs with
  | beacon k env h =>
    have hreact := onMessage_quarantines (f := f)
      (BeaconAgent.handle ⟨f.rt, f.beacon, f.backends.dedup⟩ env) hbad hdecode
      ⟨(before.state .beacon).1, before.shared, [], (before.state .beacon).2⟩
    rw [← h] at hreact
    exact ⟨congrArg (fun r => r.2.bus) hreact, congrArg (fun r => (r.1.mapError TickerAgent.Failure.py).isOk) hreact⟩
  | beaconReport k env h =>
    have hreact := onMessage_quarantines (f := f)
      (BeaconReportAgent.handle ⟨f.rt, f.defaultTargets⟩ env) hbad hdecode
      ⟨(before.state .beaconReport).1, before.shared, [], (before.state .beaconReport).2⟩
    rw [← h] at hreact
    exact ⟨congrArg (fun r => r.2.bus) hreact, congrArg (fun r => (r.1.mapError TickerAgent.Failure.py).isOk) hreact⟩

theorem isWatcher_of_read {s : f.network.Step} (hs : IsRead s) {c : f.network.Config}
    {x : f.network.Activation} (hx : c.activation s = some x) : isWatcher x.who = true := by
  obtain ⟨k, rfl, -⟩ := Bus.Network.Config.activation_eq_some hx
  obtain ⟨before, who, letter, env⟩ := x
  cases hs <;> rfl

/-- A dead letter on the channel of ledger entries reaches both watchers. -/
theorem broadcast_deadLetter {c : f.network.Config} (hc : Stormy f event c)
    (hsubject : event.subject = "ledger.entry") (hread : event.reread = event) (sender : Option AgentName) :
    Stormy f event (c.broadcast [⟨sender, deadLetterPost event e⟩]) ∧
      unread (c.broadcast [⟨sender, deadLetterPost event e⟩]) = unread c + 2 := by
  have hheard : ∀ a, isWatcher a = true → f.network.hears a (deadLetterPost event e) = true := by
    intro a ha
    have hchannel : (deadLetterPost event e).1 = "deadletter.ledger.entry" := by
      rw [deadLetterPost, hsubject]
      have happend : "deadletter." ++ "ledger.entry" = "deadletter.ledger.entry" := by decide
      exact happend
    show (subjects a).contains (deadLetterPost event e).1 = true
    rw [hchannel]
    cases a with
    | beacon => decide
    | beaconReport => decide
    | _ => cases ha
  have hinbox : ∀ a, isWatcher a = true →
      (c.broadcast [⟨sender, deadLetterPost event e⟩]).inbox a =
        c.inbox a ++ [⟨sender, deadLetterPost event e⟩] := by
    intro a ha
    have hrun : c.running a = true := by
      cases a with
      | beacon => exact hc.beacon
      | beaconReport => exact hc.beaconReport
      | _ => cases ha
    have hfilter : [(⟨sender, deadLetterPost event e⟩ : Bus.Letter AgentName (String × String))].filter
        (fun l => f.network.hears a l.body) = [⟨sender, deadLetterPost event e⟩] :=
      List.filter_cons_of_pos (hheard a ha)
    rw [Bus.Network.Config.inbox_broadcast _ hrun, hfilter]
  refine ⟨⟨hc.beacon, hc.beaconReport, ?_⟩, ?_⟩
  · intro a ha l hl
    rw [hinbox a ha, List.mem_append, List.mem_singleton] at hl
    rcases hl with hl | rfl
    · exact hc.letters a ha l hl
    · have hdecode := BaseAgent.decode_envelope event e.text
      rw [hread] at hdecode
      exact hdecode
  · rw [unread, hinbox .beacon rfl, hinbox .beaconReport rfl]
    simp only [List.length_append, List.length_singleton]
    unfold unread
    omega

/-- The watcher that read the message has one less to read. -/
theorem settle_watcher {c : f.network.Config} (hc : Stormy f event c) {x : f.network.Activation}
    {k : Nat} (hwatcher : isWatcher x.who = true) (hk : (c.inbox x.who)[k]? = some x.letter)
    (halive : x.reaction.alive = true) :
    Stormy f event (c.settle k x) ∧ unread (c.settle k x) + 1 = unread c := by
  have hrunning : ∀ a, c.running a = true → (c.settle k x).running a = true := by
    intro a ha
    by_cases hwho : a = x.who
    · rw [hwho]
      simp [Bus.Network.Config.settle, halive]
    · simp [Bus.Network.Config.settle, hwho, ha]
  refine ⟨⟨hrunning _ hc.beacon, hrunning _ hc.beaconReport, ?_⟩, ?_⟩
  · intro a ha l hl
    exact hc.letters a ha l ((Bus.Network.Config.settle_inbox_sublist c k x a).subset hl)
  · have hlt : k < (c.inbox x.who).length := (List.getElem?_eq_some_iff.mp hk).1
    have hlen := List.length_eraseIdx_of_lt hlt
    have hself : ((c.settle k x).inbox x.who).length + 1 = (c.inbox x.who).length := by
      simp only [Bus.Network.Config.settle, Function.update_self, halive, if_true]
      omega
    have hother : ∀ a, a ≠ x.who → (c.settle k x).inbox a = c.inbox a := by
      intro a ha
      simp [Bus.Network.Config.settle, ha]
    unfold unread
    obtain hwho | hwho : x.who = .beacon ∨ x.who = .beaconReport := by
      cases hx : x.who with
      | beacon => exact .inl rfl
      | beaconReport => exact .inr rfl
      | _ => rw [hx] at hwatcher; cases hwatcher
    · rw [hwho] at hself
      rw [hother .beaconReport (by rw [hwho]; decide)]
      omega
    · rw [hwho] at hself
      rw [hother .beacon (by rw [hwho]; decide)]
      omega

/-- Each message that a watcher reads leaves one more to read. -/
theorem storm_step
    (hbad : f.rt.registry.validate event.subject event.schemaVersion event.payload = .error e)
    (hsubject : event.subject = "ledger.entry") (hread : event.reread = event) {c : f.network.Config}
    (hc : Stormy f event c) {s : f.network.Step} (hs : IsRead s) :
    Stormy f event (c.step s) ∧ unread (c.step s) = unread c + (c.activation s).toList.length := by
  cases hx : c.activation s with
  | none =>
    have hstep : c.step s = c := by
      cases hs with
      | beacon k env h => exact Bus.Network.Config.step_deliver_of_none hx
      | beaconReport k env h => exact Bus.Network.Config.step_deliver_of_none hx
    rw [hstep]
    exact ⟨hc, rfl⟩
  | some x =>
    have hwatcher := isWatcher_of_read hs hx
    obtain ⟨k, hk, hstep⟩ := Bus.Network.Config.step_of_active hx
    obtain ⟨k', hk', -, hget, -⟩ := Bus.Network.Config.activation_eq_some hx
    obtain rfl : k = k' := by
      rw [hk] at hk'
      cases hk'
      rfl
    have hdecode := hc.letters x.who hwatcher x.letter (List.mem_of_getElem? hget)
    obtain ⟨hsent, halive⟩ := react_watcher hbad hs hx hdecode
    obtain ⟨hsettled, hless⟩ := settle_watcher hc hwatcher hget halive
    have hletters : x.letters = [⟨some x.who, deadLetterPost event e⟩] := by
      rw [Bus.Network.Activation.letters, hsent]
      rfl
    obtain ⟨hstormy, hmore⟩ := broadcast_deadLetter (e := e) hsettled hsubject hread (some x.who)
    rw [hstep, hletters]
    refine ⟨hstormy, ?_⟩
    rw [hmore, Option.toList_some, List.length_singleton]
    omega

theorem storm_run
    (hbad : f.rt.registry.validate event.subject event.schemaVersion event.payload = .error e)
    (hsubject : event.subject = "ledger.entry") (hread : event.reread = event) {c : f.network.Config}
    (hc : Stormy f event c) {steps : List f.network.Step} (hsteps : ∀ s ∈ steps, IsRead s) :
    Stormy f event (c.run steps) ∧ unread (c.run steps) = unread c + (c.history steps).length := by
  induction steps generalizing c with
  | nil => exact ⟨hc, rfl⟩
  | cons s steps ih =>
    obtain ⟨hstormy, hone⟩ := storm_step hbad hsubject hread hc (hsteps s List.mem_cons_self)
    obtain ⟨hstormy', hrest⟩ := ih hstormy fun s hs => hsteps s (List.mem_cons_of_mem _ hs)
    rw [Bus.Network.Config.run_cons, Bus.Network.Config.history_cons, List.length_append]
    exact ⟨hstormy', by omega⟩

/-- The ledger quarantines the event for both watchers. -/
theorem ledger_quarantines
    (hbad : f.rt.registry.validate event.subject event.schemaVersion event.payload = .error e)
    (hsubject : event.subject = "ledger.entry") (hread : event.reread = event) {c : f.network.Config}
    (hrunning : ∀ a, c.running a = true) (hquiet : ∀ a, isWatcher a = true → c.inbox a = [])
    {l : Bus.Letter AgentName (String × String)} (hinbox : c.inbox .ledger = [l])
    (hdecode : BaseAgent.decode l.body.2 = .ok event) (env : LedgerAgent.Env)
    (henv : env.infra = .healthy) :
    Stormy f event (c.step (.deliver .ledger 0 env)) ∧ unread (c.step (.deliver .ledger 0 env)) = 2 := by
  have hactive : c.activation (.deliver .ledger 0 env) = some ⟨c, .ledger, l, env⟩ := by
    simp [Bus.Network.Config.activation, hinbox, hrunning]
  obtain ⟨k, hk, hstep⟩ := Bus.Network.Config.step_of_active hactive
  have hreact := onMessage_quarantines (f := f) (LedgerAgent.handle f.rt f.backends.ledger env) hbad hdecode
    ⟨(c.state .ledger).1, c.shared, [], (c.state .ledger).2⟩
  rw [← henv] at hreact
  have hletters : Bus.Network.Activation.letters (N := f.network) ⟨c, .ledger, l, env⟩ =
      [⟨some .ledger, deadLetterPost event e⟩] :=
    congrArg (fun r => r.2.bus.map fun m => (⟨some .ledger, m⟩ : Bus.Letter AgentName (String × String)))
      hreact
  have hempty : ∀ a, isWatcher a = true → (c.settle k ⟨c, .ledger, l, env⟩).inbox a = [] := by
    intro a ha
    have hsub := Bus.Network.Config.settle_inbox_sublist c k ⟨c, .ledger, l, env⟩ a
    rw [hquiet a ha] at hsub
    exact List.sublist_nil.mp hsub
  have hsettled : Stormy f event (c.settle k ⟨c, .ledger, l, env⟩) := by
    refine ⟨?_, ?_, fun a ha l' hl' => ?_⟩
    · simp [Bus.Network.Config.settle, hrunning]
    · simp [Bus.Network.Config.settle, hrunning]
    · rw [hempty a ha] at hl'
      cases hl'
  obtain ⟨hstormy, htwo⟩ := broadcast_deadLetter (e := e) hsettled hsubject hread (some .ledger)
  rw [hstep, hletters]
  refine ⟨hstormy, ?_⟩
  rw [htwo, unread, hempty .beacon rfl, hempty .beaconReport rfl]
  rfl

/-- One ledger entry that breaks its contract, from outside and read by the ledger, is enough: whatever the
watchers read after that, and in whatever order, each message read leaves one more to read. -/
theorem deadLetters_multiply
    (hbad : f.rt.registry.validate event.subject event.schemaVersion event.payload = .error e)
    (hsubject : event.subject = "ledger.entry") (hread : event.reread = event)
    (selves : ∀ a, Self f.backends a) (store : EventStore) (env : LedgerAgent.Env)
    (henv : env.infra = .healthy) {steps : List f.network.Step} (hsteps : ∀ s ∈ steps, IsRead s) :
    let quarantined := (f.start selves store fun _ => true).run [.inject (postOf event), .deliver .ledger 0 env]
    unread (quarantined.run steps) = 2 + (quarantined.history steps).length := by
  have hhears : ∀ a, f.network.hears a (postOf event) = (subjects a).contains "ledger.entry" := by
    intro a
    show (subjects a).contains event.subject.pyStr = _
    rw [hsubject]
    rfl
  have hinbox : ∀ a, ((f.start selves store fun _ => true).broadcast [⟨none, postOf event⟩]).inbox a =
      [(⟨none, postOf event⟩ : Bus.Letter AgentName (String × String))].filter
        fun l => f.network.hears a l.body := fun a => rfl
  have hdecode : BaseAgent.decode (postOf event).2 = .ok event := by
    have hdecode := BaseAgent.decode_toDict event
    rw [hread] at hdecode
    exact hdecode
  have hfirst := ledger_quarantines hbad hsubject hread
    (c := (f.start selves store fun _ => true).broadcast [⟨none, postOf event⟩]) (fun _ => rfl)
    (fun a ha => ?_) (l := ⟨none, postOf event⟩) ?_ hdecode env henv
  · obtain ⟨hstormy, htwo⟩ := hfirst
    have hrest := (storm_run hbad hsubject hread hstormy hsteps).2
    rw [htwo] at hrest
    exact hrest
  · rw [hinbox a, List.filter_cons_of_neg]
    · rfl
    · show ¬ f.network.hears a (postOf event) = true
      rw [hhears a]
      cases a with
      | beacon => decide
      | beaconReport => decide
      | _ => cases ha
  · rw [hinbox .ledger, List.filter_cons_of_pos]
    · rfl
    · show f.network.hears .ledger (postOf event) = true
      rw [hhears .ledger]
      decide

/-- An entry without lines. -/
def emptyEntry : Event where
  subject := "ledger.entry"
  schemaVersion := .int 1
  source := "console"
  id := "00000000-0000-0000-0000-00000000000e"
  tenantId := "acme"
  payload := .obj [("entry_id", "e-9"), ("currency", "USD")]

theorem emptyEntry_invalid :
    localFleet.rt.registry.validate emptyEntry.subject emptyEntry.schemaVersion emptyEntry.payload =
      .error (.validationError "'lines' is a required property") := by
  decide +kernel

/-- Beacon and its reports read the dead letter of an entry without lines, in turn. -/
def watched : List localFleet.network.Step :=
  [.deliver .beacon 0 ({ now := 0 } : BeaconAgent.Env),
    .deliver .beaconReport 0 ({ generatedAt := "t0", uuid := "u0" } : BeaconReportAgent.Env)]

theorem deadLetters_multiply_emptyEntry :
    let quarantined := (localFleet.start newborn {} fun _ => true).run
      [.inject (postOf emptyEntry), .deliver .ledger 0 ({ uuid := "u1" } : LedgerAgent.Env)]
    unread (quarantined.run watched) = 2 + (quarantined.history watched).length := by
  refine deadLetters_multiply emptyEntry_invalid rfl rfl newborn {} { uuid := "u1" } rfl ?_
  intro s hs
  rcases List.mem_cons.mp hs with rfl | hs
  · exact .beacon 0 _ rfl
  · obtain rfl := List.mem_singleton.mp hs
    exact .beaconReport 0 _ rfl

end Fleet

end CaviErp

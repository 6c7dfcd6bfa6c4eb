import CaviErp.Fleet.Proofs.GateProofs
import CaviErp.Shared.Proofs.EventsProofs

/-!
# The event store of the fleet

What was published is in the store, and the log that all agents write to together is sound.
-/

namespace CaviErp

open Py HashChain

namespace EventStore

variable {sha256 : String → String}

/-- One call records no id twice. -/
theorem recordEvent_nodup {s : EventStore} (event : Event)
    (h : (s.events.map fun e => e.id.dictKey).Nodup) :
    ((s.recordEvent sha256 event).events.map fun e => e.id.dictKey).Nodup := by
  rcases recordEvent_cases sha256 s event with ⟨-, hs⟩ | ⟨hnew, hs, -⟩
  · rw [hs]
    exact h
  · rw [hs, List.map_append, List.nodup_append]
    refine ⟨h, List.nodup_singleton _, ?_⟩
    intro a ha b hb heq
    obtain ⟨e, he, rfl⟩ := List.mem_map.mp ha
    obtain rfl := List.mem_singleton.mp hb
    have hany : s.hasEvent event = true := List.any_eq_true.mpr ⟨e, he, by simpa using heq⟩
    rw [hnew] at hany
    cases hany

end EventStore

namespace Fleet

open EventStore

variable {f : Fleet}

/-- What each act keeps of the log. -/
structure Kept (rt : Runtime) (s : EventStore) : Prop where
  paired : s.Paired
  chained : Chained (chainHash rt.sha256) genesisHash s.entries
  nodup : (s.events.map fun e => e.id.dictKey).Nodup
  contracted : ∀ e ∈ s.events, MeetsContract rt e

theorem Kept.sound {rt : Runtime} {s : EventStore} (h : Kept rt s) : SoundLog rt s :=
  ⟨(verifyChain_eq_nil_iff _).mpr h.chained, h.nodup, h.contracted⟩

theorem Kept.recordEvent {rt : Runtime} {s : EventStore} (h : Kept rt s) {event : Event}
    (hevent : MeetsContract rt event) : Kept rt (s.recordEvent rt.sha256 event) := by
  obtain ⟨hpaired, hchained⟩ := recordEvent_chained event h.paired h.chained
  refine ⟨hpaired, hchained, recordEvent_nodup event h.nodup, ?_⟩
  intro e he
  rcases recordEvent_cases rt.sha256 s event with ⟨-, hs⟩ | ⟨-, hs, -⟩
  · rw [hs] at he
    exact h.contracted e he
  · rw [hs, List.mem_append, List.mem_singleton] at he
    rcases he with he | rfl
    · exact h.contracted e he
    · exact hevent

theorem Kept.recordDeadletter {rt : Runtime} {s : EventStore} (h : Kept rt s) (envelope : Obj) :
    Kept rt (s.recordDeadletter envelope) := by
  rcases recordDeadletter_cases s envelope with ⟨-, hs⟩ | ⟨-, hs⟩
  · rw [hs]
    exact h
  · rw [hs]
    exact ⟨h.paired, h.chained, h.nodup, h.contracted⟩

theorem Kept.after {rt : Runtime} {s : EventStore} (h : Kept rt s) {acts : List Act}
    (hacts : ∀ e ∈ acts.filterMap Act.event?, MeetsContract rt e) :
    Kept rt (acts.foldl (Act.inStore rt.sha256) s) := by
  induction acts generalizing s with
  | nil => exact h
  | cons act acts ih =>
    have hrest : ∀ e ∈ acts.filterMap Act.event?, MeetsContract rt e := by
      intro e he
      refine hacts e ?_
      rw [List.filterMap_cons]
      split
      · exact he
      · exact List.mem_cons_of_mem _ he
    have hthis : ∀ e, act.event? = some e → MeetsContract rt e := by
      intro e he
      refine hacts e ?_
      rw [List.filterMap_cons, he]
      exact List.mem_cons_self
    refine ih ?_ hrest
    cases act with
    | recorded event => exact h.recordEvent (hthis event rfl)
    | emitted event => exact h.recordEvent (hthis event rfl)
    | quarantined event error => exact h.recordDeadletter _
    | deadLettered event error => exact h.recordDeadletter _

section Runs

variable (selves : ∀ a, Self f.backends a) (running : AgentName → Bool)

open Bus.Network.Config in
/-- In every run, whatever an agent has published is in the event store: the event or the dead letter with
its id. -/
theorem published_is_held (store : EventStore) (steps : List f.network.Step) :
    ∀ l ∈ ((f.start selves store running).run steps).sent, l.origin ≠ none →
      ((f.start selves store running).run steps).shared.Holds l.body := by
  intro l hl horigin
  rcases Bus.Network.Config.sent_cases hl with hl | ⟨m, -, rfl⟩ | ⟨x, hx, hl⟩
  · cases hl
  · exact absurd rfl horigin
  · obtain ⟨m, hm, rfl⟩ := List.mem_map.mp hl
    have hreact : ∀ a env m s store, Extends store (f.network.react a env m s store).shared := by
      intro a env m s store
      obtain ⟨acts, hshared, -⟩ := react_acts (f := f) a env m s store
      rw [hshared]
      exact Extends.after f.rt.sha256 store acts
    have hextends : Extends x.reaction.shared ((f.start selves store running).run steps).shared :=
      shared_of_history (N := f.network) (R := Extends) Extends.refl Extends.trans hreact hx
    refine Holds.mono hextends ?_
    obtain ⟨acts, hshared, hsent, -⟩ :=
      react_acts (f := f) x.who x.input x.letter.body (x.before.state x.who) x.before.shared
    rw [Bus.Network.Activation.reaction, hsent] at hm
    rw [Bus.Network.Activation.reaction, hshared]
    exact holds_after f.rt.sha256 _ hm

/-- What the ledger publishes of a sale. -/
def salePosted : Bus.Letter AgentName (String × String) := saleRead.letters.headD ⟨none, ("", "")⟩

theorem published_is_held_sale :
    ((localFleet.start newborn {} fun _ => true).run saleRun).shared.Holds salePosted.body := by
  have hone : saleRead.reaction.sent.length = 1 := by
    rw [(ledger_handles decode_sale sale_contracted saleArrived none).2]
    decide +kernel
  obtain ⟨m, hm⟩ := List.length_eq_one_iff.mp hone
  have hletters : saleRead.letters = [⟨some .ledger, m⟩] := by
    rw [Bus.Network.Activation.letters, hm]
    rfl
  have hposted : salePosted = ⟨some .ledger, m⟩ := by
    rw [salePosted, hletters]
    rfl
  refine published_is_held (f := localFleet) newborn (fun _ => true) {} saleRun salePosted ?_ ?_
  · refine Bus.Network.Config.sent_of_history saleRead_mem ?_
    rw [hletters, hposted]
    exact List.mem_singleton_self _
  · rw [hposted]
    exact Option.some_ne_none _

open Bus.Network.Config in
/-- In every run from an empty event store, whoever records when, the log is sound. -/
theorem log_sound (steps : List f.network.Step) :
    SoundLog f.rt ((f.start selves {} running).run steps).shared := by
  have hempty : Kept f.rt {} := ⟨rfl, trivial, List.nodup_nil, fun e he => by cases he⟩
  have hrun : Kept f.rt ({} : EventStore) → Kept f.rt ((f.start selves {} running).run steps).shared := by
    refine shared_run (N := f.network) (R := fun s s' => Kept f.rt s → Kept f.rt s') (fun _ h => h)
      (fun h h' hs => h' (h hs)) ?_ (f.start selves {} running) steps
    intro a env m s store hstore
    obtain ⟨acts, hshared, -, hlawful⟩ := react_acts (f := f) a env m s store
    rw [hshared]
    exact hstore.after hlawful.contracted
  exact (hrun hempty).sound

end Runs

end Fleet

end CaviErp

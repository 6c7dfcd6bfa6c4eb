import CaviErp.Fleet.Proofs.FlowProofs

/-!
# Business transactions

What an agent records for a message has the correlation id of the message, dead letters included. So
whatever is on the bus or in the event store can be traced to a message from outside.
-/

namespace CaviErp

open Py

namespace Fleet

variable {f : Fleet}

/-! ## Correlation ids -/

theorem Correlated.refl (event : Event) : Correlated event event := ⟨0, rfl⟩

theorem Correlated.trans {e₁ e₂ e₃ : Event} (h : Correlated e₁ e₂) (h' : Correlated e₂ e₃) :
    Correlated e₁ e₃ := by
  obtain ⟨n, h⟩ := h
  obtain ⟨n', h'⟩ := h'
  exact ⟨n' + n, by rw [h', h, Function.iterate_add_apply]⟩

theorem Correlated.of_eq {root event : Event} (h : event.correlationId = root.correlationId) :
    Correlated root event := ⟨0, h⟩

theorem Correlated.reread {root event : Event} (h : Correlated root event) : Correlated root event.reread :=
  h.trans ⟨1, rfl⟩

/-- What is of the repertoire of an agent keeps the correlation id. -/
theorem correlated_of_kind {a : AgentName} {cause event : Event} {kind : Event → Prop}
    (hkind : kind ∈ repertoire a cause) (h : kind event) : Correlated cause event := by
  unfold repertoire at hkind
  split at hkind
  · obtain rfl := List.mem_singleton.mp hkind
    exact .of_eq h.2
  · obtain ⟨topic, -, rfl⟩ := List.mem_map.mp hkind
    exact .of_eq h.correlated

/-! ## One message -/

/-- The event of the second message has the correlation id of the event of the first. -/
def Follows (m m' : String × String) : Prop := ∀ event, heard m'.2 = some event → TracedTo [m] event

theorem Follows.refl (m : String × String) : Follows m m :=
  fun event h => ⟨m, List.mem_singleton_self m, event, h, .refl event⟩

theorem Follows.trans {m₁ m₂ m₃ : String × String} (h : Follows m₁ m₂) (h' : Follows m₂ m₃) :
    Follows m₁ m₃ := by
  intro event hevent
  obtain ⟨m, hm, middle, hmiddle, hlast⟩ := h' event hevent
  obtain rfl := List.mem_singleton.mp hm
  obtain ⟨m, hm, root, hroot, hfirst⟩ := h middle hmiddle
  exact ⟨m, hm, root, hroot, hfirst.trans hlast⟩

theorem heard_eq_some {text : String} {event : Event} (h : BaseAgent.decode text = .ok event) :
    heard text = some event := by
  rw [heard, h]
  rfl

/-- What an agent publishes follows the message that it reads. -/
theorem react_follows (a : AgentName) (env : Env a) (m : String × String) (s : f.network.State a)
    (store : EventStore) : ∀ post ∈ (f.network.react a env m s store).sent, Follows m post := by
  intro post hpost event hevent
  rcases sent_cases hpost with ⟨e, -, ⟨cause, hcause, kind, hkind, he⟩, rfl⟩ | ⟨e, error, hcause, rfl⟩
  · have hread := heard_eq_some (BaseAgent.decode_toDict e)
    obtain rfl : e.reread = event := Option.some.inj (hread.symm.trans hevent)
    exact ⟨m, List.mem_singleton_self m, cause, hcause, (correlated_of_kind hkind he).reread⟩
  · have hread := heard_eq_some (BaseAgent.decode_envelope e error)
    obtain rfl : e.reread = event := Option.some.inj (hread.symm.trans hevent)
    exact ⟨m, List.mem_singleton_self m, e, hcause, (Correlated.refl e).reread⟩

/-! ## The event store -/

/-- What is in the store and was not in the first has correlation ids of the messages. -/
structure Traced (messages : List (String × String)) (first s : EventStore) : Prop where
  events : ∀ e ∈ s.events, e ∈ first.events ∨ TracedTo messages e
  deadletters : ∀ d ∈ s.deadletters, d ∈ first.deadletters ∨
    ∃ event error, d = BaseAgent.envelope event error ∧ TracedTo messages event

theorem Traced.refl (messages : List (String × String)) (s : EventStore) : Traced messages s s :=
  ⟨fun _ he => .inl he, fun _ hd => .inl hd⟩

theorem Traced.inStore {messages : List (String × String)} {first s : EventStore}
    (h : Traced messages first s) {sha256 : String → String} {act : Act}
    (hevent : ∀ e, act.event? = some e → TracedTo messages e)
    (hletter : ∀ e, act.quarantined? = some e → TracedTo messages e) :
    Traced messages first (act.inStore sha256 s) := by
  have hrecord : ∀ event, TracedTo messages event → Traced messages first (s.recordEvent sha256 event) := by
    intro event htraced
    rcases EventStore.recordEvent_cases sha256 s event with ⟨-, hs⟩ | ⟨-, hevents, hletters⟩
    · rw [hs]
      exact h
    · refine ⟨fun e he => ?_, fun d hd => h.deadletters d (hletters ▸ hd)⟩
      rw [hevents, List.mem_append, List.mem_singleton] at he
      rcases he with he | rfl
      · exact h.events e he
      · exact .inr htraced
  have hquarantine : ∀ event error, TracedTo messages event →
      Traced messages first (s.recordDeadletter (BaseAgent.envelope event error)) := by
    intro event error htraced
    rcases EventStore.recordDeadletter_cases s (BaseAgent.envelope event error) with ⟨-, hs⟩ | ⟨-, hs⟩
    · rw [hs]
      exact h
    · rw [hs]
      refine ⟨h.events, fun d hd => ?_⟩
      rcases List.mem_append.mp hd with hd | hd
      · exact h.deadletters d hd
      · exact .inr ⟨event, error, List.mem_singleton.mp hd, htraced⟩
  cases act with
  | recorded event => exact hrecord event (hevent event rfl)
  | emitted event => exact hrecord event (hevent event rfl)
  | quarantined event error => exact hquarantine event error (hletter event rfl)
  | deadLettered event error => exact hquarantine event error (hletter event rfl)

theorem Traced.after {messages : List (String × String)} {first s : EventStore}
    (h : Traced messages first s) {sha256 : String → String} {acts : List Act}
    (hevents : ∀ e ∈ acts.filterMap Act.event?, TracedTo messages e)
    (hletters : ∀ e ∈ acts.filterMap Act.quarantined?, TracedTo messages e) :
    Traced messages first (acts.foldl (Act.inStore sha256) s) := by
  induction acts generalizing s with
  | nil => exact h
  | cons act acts ih =>
    have hmem : ∀ {g : Act → Option Event} {e}, g act = some e → e ∈ (act :: acts).filterMap g :=
      fun hg => List.mem_filterMap.mpr ⟨act, List.mem_cons_self, hg⟩
    have hrest : ∀ {g : Act → Option Event} {e}, e ∈ acts.filterMap g → e ∈ (act :: acts).filterMap g := by
      intro g e he
      obtain ⟨act', hact', hg⟩ := List.mem_filterMap.mp he
      exact List.mem_filterMap.mpr ⟨act', List.mem_cons_of_mem _ hact', hg⟩
    exact ih (h.inStore (fun e he => hevents e (hmem he)) fun e he => hletters e (hmem he))
      (fun e he => hevents e (hrest he)) fun e he => hletters e (hrest he)

/-- What an agent records for a message that can be traced, can be traced. -/
theorem react_traced {messages : List (String × String)} {first : EventStore} (a : AgentName) (env : Env a)
    (m : String × String) (s : f.network.State a) (store : EventStore)
    (hroot : ∃ root, root ∈ messages ∧ Follows root m) (h : Traced messages first store) :
    Traced messages first (f.network.react a env m s store).shared := by
  have htraced : ∀ cause event, heard m.2 = some cause → Correlated cause event → TracedTo messages event := by
    intro cause event hcause hevent
    obtain ⟨root, hmem, hfollows⟩ := hroot
    obtain ⟨m', hm', e, he, hfirst⟩ := hfollows cause hcause
    obtain rfl := List.mem_singleton.mp hm'
    exact ⟨m', hmem, e, he, hfirst.trans hevent⟩
  obtain ⟨acts, hshared, -, hlawful⟩ := react_acts (f := f) a env m s store
  rw [hshared]
  refine h.after (fun e he => ?_) fun e he => ?_
  · obtain ⟨cause, hcause, kind, hkind, hof⟩ := kind_of_lawful hlawful he
    exact htraced cause e hcause (correlated_of_kind hkind hof)
  · exact htraced e e (hlawful.quarantined e he) (.refl e)

/-! ## Runs -/

theorem mem_fromOutside {m : String × String} {steps : List f.network.Step} (h : .inject m ∈ steps) :
    m ∈ fromOutside steps :=
  List.mem_filterMap.mpr ⟨.inject m, h, rfl⟩

open Bus.Network.Config in
/-- In every run, whatever fails, is lost or comes in another order: each event on the bus, and each event and
dead letter that the event store did not have at first, has the correlation id of a message from outside. -/
theorem transactions_have_roots (selves : ∀ a, Self f.backends a) (store : EventStore)
    (running : AgentName → Bool) (steps : List f.network.Step) :
    (∀ l ∈ ((f.start selves store running).run steps).sent, ∀ event, heard l.body.2 = some event →
        TracedTo (fromOutside steps) event) ∧
      (∀ event ∈ ((f.start selves store running).run steps).shared.events,
        event ∈ store.events ∨ TracedTo (fromOutside steps) event) ∧
      ∀ d ∈ ((f.start selves store running).run steps).shared.deadletters, d ∈ store.deadletters ∨
        ∃ event error, d = BaseAgent.envelope event error ∧ TracedTo (fromOutside steps) event := by
  have hfirst : (f.start selves store running).Rooted Follows
      (fun m : String × String => m ∈ fromOutside steps) := by
    intro l hl
    cases hl
  have hroots : ∀ m, .inject m ∈ steps → m ∈ fromOutside steps := fun m hm => mem_fromOutside hm
  obtain ⟨hrooted, hstore⟩ := rooted_run (N := f.network) Follows.refl Follows.trans react_follows
    (I := Traced (fromOutside steps) store) react_traced (start_posted selves store running) hfirst
    (.refl _ store) hroots
  refine ⟨fun l hl event hevent => ?_, hstore.events, hstore.deadletters⟩
  obtain ⟨root, hroot, hfollows⟩ := hrooted l hl
  obtain ⟨m, hm, e, he, hcorrelated⟩ := hfollows event hevent
  obtain rfl := List.mem_singleton.mp hm
  exact ⟨m, hroot, e, he, hcorrelated⟩

end Fleet

end CaviErp

import CaviErp.Base.Outbox
import CaviErp.Base.Proofs.AgentProofs

/-!
# What the runtime leaves behind

The operations of `BaseAgent` in terms of acts, and what acts do to the event store.
-/

namespace CaviErp

open Py

/-! ## One of a kind -/

section Kinds

variable {α β : Type} {r : α → β → Prop} {xs : List α} {kinds : List β}

theorem exists_kind (h : List.SublistForall₂ r xs kinds) {x : α} (hx : x ∈ xs) :
    ∃ kind ∈ kinds, r x kind := by
  induction h with
  | nil => cases hx
  | cons hr h ih =>
    rcases List.mem_cons.mp hx with rfl | hx
    · exact ⟨_, List.mem_cons_self, hr⟩
    · obtain ⟨kind, hkind, hr⟩ := ih hx
      exact ⟨kind, List.mem_cons_of_mem _ hkind, hr⟩
  | cons_right h ih =>
    obtain ⟨kind, hkind, hr⟩ := ih hx
    exact ⟨kind, List.mem_cons_of_mem _ hkind, hr⟩

/-- If nothing of a kind costs more than its bound, what is said costs no more than all bounds. -/
theorem sum_le_of_kinds {p : α → Prop} {cost : α → Nat} {bounds : List Nat} (hp : ∀ x ∈ xs, p x)
    (hbounds : List.Forall₂ (fun kind n => ∀ x, p x → r x kind → cost x ≤ n) kinds bounds)
    (h : List.SublistForall₂ r xs kinds) : (xs.map cost).sum ≤ bounds.sum := by
  induction h generalizing bounds with
  | nil => exact Nat.zero_le _
  | cons hr h ih =>
    cases hbounds with
    | cons hbound hbounds =>
      have hx := hbound _ (hp _ List.mem_cons_self) hr
      have hrest := ih (fun x hx => hp x (List.mem_cons_of_mem _ hx)) hbounds
      simp only [List.map_cons, List.sum_cons]
      omega
  | cons_right h ih =>
    cases hbounds with
    | cons hbound hbounds =>
      have hrest := ih hp hbounds
      simp only [List.sum_cons]
      omega

end Kinds

namespace Speaks

variable {σ ω : Type} {rt : Runtime} (infra : Infra) {cause : Option Event}

theorem lawful_event {event : Event} {kind : Event → Prop} (hvalid : MeetsContract rt event)
    (hkind : kind event) {act : Act} (hact : act.event? = some event) (hletter : act.quarantined? = none) :
    Lawful rt cause [kind] [act] := by
  refine ⟨?_, by simp [hletter], ?_⟩
  · intro e he
    obtain rfl : e = event := by simpa [hact] using he
    exact hvalid
  · rw [List.filterMap_cons, hact]
    exact .cons hkind .nil

theorem emit (note : ω) {event : Event} {kind : Event → Prop} (hkind : kind event) :
    Speaks rt cause [kind] (BaseAgent.emit rt infra note event : Action (World σ ω) PyError Unit) := by
  intro w
  rcases BaseAgent.emit_cases rt infra note event w with ⟨e, he, -⟩ | ⟨-, hvalid, ⟨e, he, -⟩ | he⟩
  · exact ⟨[], by rw [he, Board.after_nil], .nil⟩
  · refine ⟨[.recorded event], ?_, lawful_event hvalid hkind rfl rfl⟩
    rw [he]
    simp [World.board, World.recorded, Board.after, Act.inStore, Act.post?]
  · refine ⟨[.emitted event], ?_, lawful_event hvalid hkind rfl rfl⟩
    rw [he]
    simp [World.board, World.recorded, World.published, Board.after, Act.inStore, Act.post?]

theorem lawful_deadLetter {event : Event} {act : Act} (hact : act.event? = none)
    (hletter : act.quarantined? = some event) : Lawful rt (some event) [] [act] := by
  refine ⟨by simp [hact], ?_, ?_⟩
  · intro e he
    obtain rfl : e = event := by simpa [hletter] using he
    rfl
  · rw [List.filterMap_cons, hact]
    exact .nil

theorem deadLetter (event : Event) (error : String) :
    Speaks rt (some event) []
      (BaseAgent.deadLetter rt infra event error : Action (World σ ω) PyError Unit) := by
  intro w
  rcases BaseAgent.deadLetter_cases rt infra event error w with ⟨e, he, -⟩ | ⟨e, he, -⟩ | he
  · exact ⟨[], by rw [he, Board.after_nil], .nil⟩
  · refine ⟨[.quarantined event error], ?_, lawful_deadLetter rfl rfl⟩
    rw [he]
    simp [World.board, World.quarantined, Board.after, Act.inStore, Act.post?]
  · refine ⟨[.deadLettered event error], ?_, lawful_deadLetter rfl rfl⟩
    rw [he]
    simp [World.board, World.quarantined, World.published, Board.after, Act.inStore, Act.post?]

variable {allowed : Event → List (Event → Prop)}

theorem dispatch {handle : Event → Action (World σ ω) PyError Unit}
    (h : ∀ event, Speaks rt (some event) (allowed event) (handle event)) (event : Event) :
    Speaks rt (some event) (allowed event) (BaseAgent.dispatch rt infra handle event) := by
  intro w
  cases hv : rt.registry.validate event.subject event.schemaVersion event.payload with
  | error e =>
    rw [BaseAgent.dispatch_of_invalid rt infra hv]
    exact (deadLetter infra event e.text).of_silent w
  | ok u =>
    rw [BaseAgent.dispatch_of_valid rt infra hv]
    exact h event w

/-- What a message makes an agent do answers the event of the message, if it has one. -/
theorem onMessage {handle : Event → Action (World σ ω) PyError Unit}
    (h : ∀ event, Speaks rt (some event) (allowed event) (handle event)) (m : Message) :
    Speaks rt (heard m.data) ((heard m.data).elim [] allowed) (BaseAgent.onMessage rt infra handle m) := by
  refine ite ((pure ()).of_silent) ?_
  refine ofExcept_bind fun event hdecode => ?_
  rw [heard, hdecode]
  exact dispatch infra h event

end Speaks

/-- A message is unreadable and raises, is quarantined, or is handled. -/
theorem onMessage_cases {σ ω : Type} (rt : Runtime) (infra : Infra)
    (handle : Event → Action (World σ ω) PyError Unit) (data : String) (w : World σ ω) :
    (∃ e, BaseAgent.decode data = .error e ∧
        BaseAgent.onMessage rt infra handle { data := data } w = (.error e, w)) ∨
      (∃ event e, BaseAgent.decode data = .ok event ∧
        rt.registry.validate event.subject event.schemaVersion event.payload = .error e ∧
        BaseAgent.onMessage rt infra handle { data := data } w =
          BaseAgent.deadLetter rt infra event e.text w) ∨
      ∃ event, BaseAgent.decode data = .ok event ∧ MeetsContract rt event ∧
        BaseAgent.onMessage rt infra handle { data := data } w = handle event w := by
  cases hd : BaseAgent.decode data with
  | error e => exact .inl ⟨e, rfl, by simp [BaseAgent.onMessage, hd]⟩
  | ok event =>
    rw [BaseAgent.onMessage_of_decode rt infra rfl hd]
    cases hv : rt.registry.validate event.subject event.schemaVersion event.payload with
    | error e => exact .inr (.inl ⟨event, e, rfl, hv, BaseAgent.dispatch_of_invalid rt infra hv w⟩)
    | ok u => exact .inr (.inr ⟨event, rfl, hv, BaseAgent.dispatch_of_valid rt infra hv w⟩)

/-! ## The event store -/

namespace EventStore

variable (sha256 : String → String)

theorem recordEvent_cases (s : EventStore) (event : Event) :
    s.hasEvent event = true ∧ s.recordEvent sha256 event = s ∨
      s.hasEvent event = false ∧ (s.recordEvent sha256 event).events = s.events ++ [event] ∧
        (s.recordEvent sha256 event).deadletters = s.deadletters := by
  unfold recordEvent
  cases h : s.hasEvent event with
  | true => exact .inl ⟨rfl, if_pos rfl⟩
  | false => exact .inr ⟨rfl, rfl, rfl⟩

theorem hasEvent_recordEvent (s : EventStore) (event : Event) :
    (s.recordEvent sha256 event).hasEvent event = true := by
  rcases recordEvent_cases sha256 s event with ⟨h, hs⟩ | ⟨-, hs, -⟩
  · rw [hs, h]
  · rw [hasEvent, hs]
    simp

/-- A dead letter with the id of the envelope is kept. -/
def hasDeadletter (s : EventStore) (envelope : Obj) : Bool :=
  s.deadletters.any fun d => deadletterKey d == deadletterKey envelope

theorem recordDeadletter_cases (s : EventStore) (envelope : Obj) :
    s.hasDeadletter envelope = true ∧ s.recordDeadletter envelope = s ∨
      s.hasDeadletter envelope = false ∧
        s.recordDeadletter envelope = { s with deadletters := s.deadletters ++ [envelope] } := by
  unfold recordDeadletter hasDeadletter
  cases h : s.deadletters.any fun d => deadletterKey d == deadletterKey envelope with
  | true => exact .inl ⟨rfl, if_pos rfl⟩
  | false => exact .inr ⟨rfl, if_neg (by simp)⟩

theorem hasDeadletter_recordDeadletter (s : EventStore) (envelope : Obj) :
    (s.recordDeadletter envelope).hasDeadletter envelope = true := by
  rcases recordDeadletter_cases s envelope with ⟨h, hs⟩ | ⟨-, hs⟩
  · rw [hs, h]
  · rw [hs]
    simp [hasDeadletter]

/-- The store has what it had, in the same places. -/
structure Extends (s s' : EventStore) : Prop where
  events : s.events <+: s'.events
  deadletters : s.deadletters <+: s'.deadletters

namespace Extends

theorem refl (s : EventStore) : Extends s s := ⟨List.prefix_refl _, List.prefix_refl _⟩

theorem trans {s₁ s₂ s₃ : EventStore} (h : Extends s₁ s₂) (h' : Extends s₂ s₃) : Extends s₁ s₃ :=
  ⟨h.events.trans h'.events, h.deadletters.trans h'.deadletters⟩

theorem hasEvent {s s' : EventStore} (h : Extends s s') {event : Event}
    (hs : s.hasEvent event = true) : s'.hasEvent event = true := by
  obtain ⟨e, he, hid⟩ := List.any_eq_true.mp hs
  exact List.any_eq_true.mpr ⟨e, h.events.subset he, hid⟩

theorem hasDeadletter {s s' : EventStore} (h : Extends s s') {envelope : Obj}
    (hs : s.hasDeadletter envelope = true) : s'.hasDeadletter envelope = true := by
  obtain ⟨d, hd, hid⟩ := List.any_eq_true.mp hs
  exact List.any_eq_true.mpr ⟨d, h.deadletters.subset hd, hid⟩

theorem inStore (s : EventStore) (act : Act) : Extends s (act.inStore sha256 s) := by
  have hevent : ∀ event, Extends s (s.recordEvent sha256 event) := by
    intro event
    rcases recordEvent_cases sha256 s event with ⟨-, hs⟩ | ⟨-, hs, hs'⟩
    · rw [hs]
      exact refl s
    · refine ⟨?_, hs'.symm ▸ List.prefix_refl s.deadletters⟩
      rw [hs]
      exact List.prefix_append _ _
  have hletter : ∀ envelope, Extends s (s.recordDeadletter envelope) := by
    intro envelope
    rcases recordDeadletter_cases s envelope with ⟨-, hs⟩ | ⟨-, hs⟩
    · rw [hs]
      exact refl s
    · rw [hs]
      exact ⟨List.prefix_refl _, List.prefix_append _ _⟩
  cases act with
  | recorded event => exact hevent event
  | emitted event => exact hevent event
  | quarantined event error => exact hletter _
  | deadLettered event error => exact hletter _

theorem after (s : EventStore) (acts : List Act) :
    Extends s (acts.foldl (Act.inStore sha256) s) := by
  induction acts generalizing s with
  | nil => exact refl s
  | cons act acts ih => exact (inStore sha256 s act).trans (ih _)

end Extends

/-- What the store must hold for what is published. -/
def Holds (s : EventStore) (post : String × String) : Prop :=
  (∃ event, s.hasEvent event = true ∧
    post = (event.subject.pyStr, dumps .default (.obj event.toDict))) ∨
  ∃ event error, s.hasDeadletter (BaseAgent.envelope event error) = true ∧
    post = ("deadletter." ++ event.subject.pyStr, dumps .default (.obj (BaseAgent.envelope event error)))

theorem Holds.mono {s s' : EventStore} (h : Extends s s') {post : String × String} (hs : s.Holds post) :
    s'.Holds post := by
  rcases hs with ⟨event, hevent, hpost⟩ | ⟨event, error, hletter, hpost⟩
  · exact .inl ⟨event, h.hasEvent hevent, hpost⟩
  · exact .inr ⟨event, error, h.hasDeadletter hletter, hpost⟩

/-- What acts publish, they have recorded. -/
theorem holds_after (s : EventStore) {acts : List Act} {post : String × String}
    (h : post ∈ acts.filterMap Act.post?) : (acts.foldl (Act.inStore sha256) s).Holds post := by
  induction acts generalizing s with
  | nil => cases h
  | cons act acts ih =>
    rw [List.filterMap_cons] at h
    have hrest : post ∈ acts.filterMap Act.post? →
        ((act :: acts).foldl (Act.inStore sha256) s).Holds post := fun h => ih _ h
    have hthis : act.post? = some post → ((act :: acts).foldl (Act.inStore sha256) s).Holds post := by
      intro hact
      refine Holds.mono (Extends.after sha256 (act.inStore sha256 s) acts) ?_
      cases act with
      | recorded event => cases hact
      | emitted event =>
        exact .inl ⟨event, hasEvent_recordEvent sha256 s event, (Option.some.inj hact).symm⟩
      | quarantined event error => cases hact
      | deadLettered event error =>
        exact .inr ⟨event, error, hasDeadletter_recordDeadletter s _, (Option.some.inj hact).symm⟩
    cases hact : act.post? with
    | none =>
      rw [hact] at h
      exact hrest h
    | some p =>
      rw [hact] at h
      rcases List.mem_cons.mp h with rfl | h
      · exact hthis hact
      · exact hrest h

end EventStore

end CaviErp

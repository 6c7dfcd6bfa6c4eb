import CaviErp.Base.Proofs.AgentProofs
import CaviErp.Base.TenantScope

/-!
# What the runtime records

The events an agent records are those it emits. One that leaves the tenant of its envelope out, under a
contract that asks for a tenant in the payload, is ownerless.
-/

namespace CaviErp

open Py Schema

/-! ## What a run records -/

/-- The payload names a tenant, and the envelope does not. -/
def Event.Ownerless (e : Event) : Prop :=
  e.tenantId = .null ∧ ∃ t, item e.payload "tenant_id" = .ok (.str t)

theorem Event.Ownerless.not_scoped {e : Event} (h : e.Ownerless) : ¬ e.Scoped := by
  obtain ⟨hnull, t, ht⟩ := h
  intro hscoped
  have hsame := hscoped _ ht
  rw [hnull] at hsame
  cases hsame

namespace Records

variable {σ ω : Type} {P Q : Event → Prop} {w w' w'' : World σ ω}

theorem refl (P : Event → Prop) (w : World σ ω) : Records P w w := ⟨[], by simp, by simp⟩

theorem mono (h : Records P w w') (himp : ∀ e, P e → Q e) : Records Q w w' := by
  obtain ⟨new, hnew, hall⟩ := h
  exact ⟨new, hnew, fun e he => himp e (hall e he)⟩

theorem of_same (h : Records P w w') (hsame : w''.store.events = w'.store.events) :
    Records P w w'' := by
  obtain ⟨new, hnew, hall⟩ := h
  exact ⟨new, hsame.trans hnew, hall⟩

theorem record (h : Records P w w') {e : Event} (he : P e) (rt : Runtime) (note : ω) :
    Records P w (w'.recorded rt note e) := by
  by_cases hdup : w'.store.hasEvent e = true
  · exact h.of_same (by simp [World.recorded, EventStore.recordEvent, hdup])
  · obtain ⟨new, hnew, hall⟩ := h
    refine ⟨new ++ [e], ?_, ?_⟩
    · simp [World.recorded, EventStore.recordEvent, hdup, hnew]
    · intro x hx
      rcases List.mem_append.mp hx with hx | hx
      · exact hall x hx
      · rw [List.mem_singleton.mp hx]
        exact he

/-- A run that records ownerless events only is as good as none for whoever reads by tenant. -/
theorem unaudited (h : Records Event.Ownerless w w') : Unaudited w w' := by
  refine ⟨h.mono fun e he => he.not_scoped, ?_, ?_⟩
  · constructor
    · rintro ⟨new, hnew, hscoped⟩
      obtain ⟨new', hnew', hown⟩ := h
      obtain rfl : new = new' := List.append_cancel_left (hnew.symm.trans hnew')
      cases new with
      | nil => simpa using hnew
      | cons e es =>
        exact absurd (hscoped e List.mem_cons_self) (hown e List.mem_cons_self).not_scoped
    · intro hsame
      exact ⟨[], by simpa using hsame, by simp⟩
  · intro tenantId
    obtain ⟨new, hnew, hown⟩ := h
    have hnone : new.filter (fun e => decide (e.tenantId = .str tenantId)) = [] := by
      rw [List.filter_eq_nil_iff]
      intro e he
      simp [(hown e he).1]
    rw [EventStore.rowsOf, EventStore.rowsOf, hnew, List.filter_append, hnone, List.append_nil]

end Records

/-! ## The runtime -/

namespace BaseAgent

variable {σ ω : Type} {rt : Runtime} {infra : Infra} {P : Event → Prop} {w₀ : World σ ω}

theorem emit_records {note : ω} {event : Event}
    (h : rt.registry.validate event.subject event.schemaVersion event.payload = .ok () → P event) :
    Action.Keeps (Records P w₀) (emit rt infra note event) := by
  intro w hw
  rcases emit_cases rt infra note event w with ⟨e, he, -⟩ | ⟨-, hv, ⟨e, he, -⟩ | he⟩
  · rw [he]
    exact hw
  · rw [he]
    exact hw.record (h hv) rt note
  · rw [he]
    exact (hw.record (h hv) rt note).of_same rfl

theorem deadLetter_records (event : Event) (error : String) :
    Action.Keeps (Records P w₀) (deadLetter rt infra event error) := by
  intro w hw
  have hstore : ∀ envelope, (w.store.recordDeadletter envelope).events = w.store.events := by
    intro envelope
    unfold EventStore.recordDeadletter
    split <;> rfl
  rcases deadLetter_cases rt infra event error w with ⟨e, he, -⟩ | ⟨e, he, -⟩ | he
  · rw [he]
    exact hw
  · rw [he]
    exact hw.of_same (hstore _)
  · rw [he]
    exact hw.of_same (hstore _)

theorem receive_records {handle : Event → Action (World σ ω) PyError Unit}
    (h : ∀ e, Action.Keeps (Records P w₀) (handle e)) (inbound : Inbound) :
    Action.Keeps (Records P w₀) (receive rt infra handle inbound) := by
  cases inbound with
  | event e => exact h e
  | message m =>
    show Action.Keeps _ (onMessage rt infra handle m)
    unfold onMessage
    split
    · exact .pure ()
    · refine .ofExcept_bind fun event _ => ?_
      unfold dispatch
      split
      · split
        · exact deadLetter_records _ _
        · exact .raise _
      · exact h event

end BaseAgent

/-- A contract that asks for a tenant in the payload. -/
def AsksForTenant (schema : Schema) : Prop :=
  ∃ props, schema = strictRecord props ∧ ("tenant_id", text 1) ∈ props

theorem Event.ownerless_of_valid {dir : String} {complaint : Schema → Json → String} {e : Event}
    {schema : Schema}
    (hfile : schemaFiles.lookup (SchemaRegistry.key e.subject e.schemaVersion) = some schema)
    (hasks : AsksForTenant schema) (hnull : e.tenantId = .null)
    (hv : (SchemaRegistry.repository dir complaint).validate e.subject e.schemaVersion
      e.payload = .ok ()) : e.Ownerless := by
  have hvalid := (validate_repository_iff hfile).mp hv
  obtain ⟨props, rfl, hprop⟩ := hasks
  refine ⟨hnull, ?_⟩
  cases hp : e.payload with
  | obj o =>
    rw [hp] at hvalid
    obtain ⟨v, hget, hvv⟩ := valid_record_field hvalid (List.mem_map_of_mem hprop) hprop
    obtain ⟨t, rfl, -⟩ := (valid_text_iff 1 v).mp hvv
    exact ⟨t, by simp [item, hget]⟩
  | _ =>
    obtain ⟨o, ho, -⟩ := (valid_record_iff ..).mp hvalid
    rw [hp] at ho
    cases ho

theorem BaseAgent.emit_ownerless {σ ω : Type} {dir : String} {complaint : Schema → Json → String}
    {rt : Runtime} (hreg : rt.registry = .repository dir complaint) {infra : Infra} {w₀ : World σ ω}
    {note : ω} {event : Event} {subject : String} {version : Int} (schema : Schema)
    (hfile : schemaFiles.lookup (SchemaRegistry.key (.str subject) (.int version)) = some schema)
    (hasks : AsksForTenant schema) (hsubject : event.subject = .str subject)
    (hversion : event.schemaVersion = .int version) (hnull : event.tenantId = .null) :
    Action.Keeps (Records Event.Ownerless w₀) (emit rt infra note event) := by
  refine emit_records fun hv => ?_
  rw [hreg] at hv
  refine Event.ownerless_of_valid ?_ hasks hnull hv
  rw [hsubject, hversion]
  exact hfile

end CaviErp

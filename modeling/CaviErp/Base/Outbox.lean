import CaviErp.Base.Agent
import Mathlib.Data.List.Forall2

/-!
# What an agent does to others

Store and bus are the part of a world that an agent shares. All that the runtime does there is one of four
`Act`s; `Speaks` bounds the acts of a procedure whatever store and bus answer, and says which event they
answer. Its rules follow the constructs the agents are written in.
-/

namespace CaviErp

open Py

/-- What an agent shares with others. -/
structure Board where
  store : EventStore
  /-- What was published, as channel and text, oldest first. -/
  bus : List (String × String)

namespace World

variable {σ ω : Type}

def board (w : World σ ω) : Board := ⟨w.store, w.bus⟩

end World

/-- What the runtime does on the board. -/
inductive Act where
  /-- An event is recorded, and the bus refuses it. -/
  | recorded (event : Event)
  /-- An event is recorded and published. -/
  | emitted (event : Event)
  /-- A dead letter is recorded, and the bus refuses it. -/
  | quarantined (event : Event) (error : String)
  /-- A dead letter is recorded and published. -/
  | deadLettered (event : Event) (error : String)

namespace Act

/-- The event that was recorded, if one was. -/
def event? : Act → Option Event
  | recorded event => some event
  | emitted event => some event
  | _ => none

/-- The event of a dead letter, if one was recorded. -/
def quarantined? : Act → Option Event
  | quarantined event _ => some event
  | deadLettered event _ => some event
  | _ => none

/-- What was published, if anything was. -/
def post? : Act → Option (String × String)
  | emitted event => some (event.subject.pyStr, dumps .default (.obj event.toDict))
  | deadLettered event error =>
    some ("deadletter." ++ event.subject.pyStr, dumps .default (.obj (BaseAgent.envelope event error)))
  | _ => none

def inStore (sha256 : String → String) (s : EventStore) : Act → EventStore
  | recorded event => s.recordEvent sha256 event
  | emitted event => s.recordEvent sha256 event
  | quarantined event error => s.recordDeadletter (BaseAgent.envelope event error)
  | deadLettered event error => s.recordDeadletter (BaseAgent.envelope event error)

end Act

namespace Board

/-- The board after acts, one after the other. -/
def after (sha256 : String → String) (b : Board) (acts : List Act) : Board :=
  ⟨acts.foldl (Act.inStore sha256) b.store, b.bus ++ acts.filterMap Act.post?⟩

@[simp] theorem after_nil (sha256 : String → String) (b : Board) : b.after sha256 [] = b := by
  simp [after]

theorem after_append (sha256 : String → String) (b : Board) (acts acts' : List Act) :
    b.after sha256 (acts ++ acts') = (b.after sha256 acts).after sha256 acts' := by
  simp [after]

end Board

/-- The events meet their contracts. -/
def MeetsContract (rt : Runtime) (event : Event) : Prop :=
  rt.registry.validate event.subject event.schemaVersion event.payload = .ok ()

/-- The event of a message, if it has one. -/
def heard (text : String) : Option Event := (BaseAgent.decode text).toOption

/-- The event is one about one of the subjects, in the business transaction of `cause`. -/
structure Answers (cause : Event) (subjects : List String) (event : Event) : Prop where
  subject : ∃ s ∈ subjects, event.subject = .str s
  correlated : event.correlationId = cause.correlationId

/-- Acts that answer `cause`: the events recorded meet their contracts and are, in order, among those that
are `allowed`, each of which is one of a kind; the dead letters are of `cause`. -/
structure Lawful (rt : Runtime) (cause : Option Event) (allowed : List (Event → Prop)) (acts : List Act) :
    Prop where
  contracted : ∀ e ∈ acts.filterMap Act.event?, MeetsContract rt e
  quarantined : ∀ e ∈ acts.filterMap Act.quarantined?, cause = some e
  kinds : List.SublistForall₂ (fun e kind => kind e) (acts.filterMap Act.event?) allowed

namespace Lawful

variable {rt : Runtime} {cause : Option Event} {allowed allowed' : List (Event → Prop)} {acts acts' : List Act}

theorem nil : Lawful rt cause allowed [] :=
  ⟨by simp, by simp, .nil⟩

theorem append (h : Lawful rt cause allowed acts) (h' : Lawful rt cause allowed' acts') :
    Lawful rt cause (allowed ++ allowed') (acts ++ acts') := by
  obtain ⟨kinds, hforall, hsub⟩ := List.sublistForall₂_iff.mp h.kinds
  obtain ⟨kinds', hforall', hsub'⟩ := List.sublistForall₂_iff.mp h'.kinds
  refine ⟨?_, ?_, ?_⟩
  · intro e he
    rw [List.filterMap_append, List.mem_append] at he
    exact he.elim (h.contracted e) (h'.contracted e)
  · intro e he
    rw [List.filterMap_append, List.mem_append] at he
    exact he.elim (h.quarantined e) (h'.quarantined e)
  · rw [List.filterMap_append]
    refine List.sublistForall₂_iff.mpr ⟨kinds ++ kinds', ?_, hsub.append hsub'⟩
    exact List.rel_append hforall hforall'

theorem weaken (h : Lawful rt cause allowed acts) (hsub : allowed.Sublist allowed') :
    Lawful rt cause allowed' acts := by
  obtain ⟨kinds, hforall, hkinds⟩ := List.sublistForall₂_iff.mp h.kinds
  exact ⟨h.contracted, h.quarantined, List.sublistForall₂_iff.mpr ⟨kinds, hforall, hkinds.trans hsub⟩⟩

end Lawful

/-- Whatever the procedure finds, it leaves acts on the board that answer `cause`. -/
def Speaks {σ ω ε α : Type} (rt : Runtime) (cause : Option Event) (allowed : List (Event → Prop))
    (x : Action (World σ ω) ε α) : Prop :=
  ∀ w, ∃ acts : List Act, (x w).2.board = w.board.after rt.sha256 acts ∧ Lawful rt cause allowed acts

namespace Speaks

variable {σ ω ε α β : Type} {rt : Runtime} {cause : Option Event} {allowed allowed' : List (Event → Prop)}

/-- A procedure that leaves the board alone. -/
theorem silent {x : Action (World σ ω) ε α} (h : ∀ w, (x w).2.board = w.board) : Speaks rt cause [] x := by
  intro w
  exact ⟨[], by rw [h w, Board.after_nil], .nil⟩

theorem pure (a : α) : Speaks rt cause [] (Pure.pure a : Action (World σ ω) ε α) := silent fun _ => rfl

theorem raise (e : ε) : Speaks rt cause [] (Action.raise e : Action (World σ ω) ε α) := silent fun _ => rfl

theorem read : Speaks rt cause [] (Action.read : Action (World σ ω) ε (World σ ω)) := silent fun _ => rfl

theorem ofExcept (r : Except ε α) : Speaks rt cause [] (Action.ofExcept r : Action (World σ ω) ε α) :=
  silent fun _ => rfl

theorem modify {f : World σ ω → World σ ω} (hf : ∀ w, (f w).board = w.board) :
    Speaks rt cause [] (Action.modify f : Action (World σ ω) ε Unit) := silent hf

theorem onSelf (x : Action σ PyError α) :
    Speaks rt cause [] (CaviErp.onSelf x : Action (World σ ω) PyError α) := silent fun _ => rfl

theorem attempt {x : Action (World σ ω) ε α} (h : Speaks rt cause allowed x) :
    Speaks rt cause allowed (Action.attempt x) := h

/-- What may be said, may be left unsaid. -/
theorem weaken {x : Action (World σ ω) ε α} (h : Speaks rt cause allowed x)
    (hsub : allowed.Sublist allowed') : Speaks rt cause allowed' x := by
  intro w
  obtain ⟨acts, hboard, hlawful⟩ := h w
  exact ⟨acts, hboard, hlawful.weaken hsub⟩

theorem of_silent {x : Action (World σ ω) ε α} (h : Speaks rt cause [] x) : Speaks rt cause allowed x :=
  h.weaken (List.nil_sublist _)

/-- What follows may use how the value came about. -/
theorem bind_ok {x : Action (World σ ω) ε α} {f : α → Action (World σ ω) ε β}
    (hx : Speaks rt cause allowed x)
    (hf : ∀ a w, (x w).1 = .ok a → Speaks rt cause allowed' (f a)) :
    Speaks rt cause (allowed ++ allowed') (x >>= f) := by
  intro w
  obtain ⟨acts, hboard, hlawful⟩ := hx w
  have hrest : ∀ a, (x w).1 = .ok a → Speaks rt cause allowed' (f a) := fun a => hf a w
  rw [Action.bind_apply]
  rcases hxw : x w with ⟨r, v⟩
  rw [hxw] at hboard hrest
  cases r with
  | error e => exact ⟨acts, hboard, hlawful.weaken (List.sublist_append_left _ _)⟩
  | ok a =>
    obtain ⟨acts', hboard', hlawful'⟩ := hrest a rfl v
    refine ⟨acts ++ acts', ?_, hlawful.append hlawful'⟩
    rw [Board.after_append, ← hboard]
    exact hboard'

theorem bind {x : Action (World σ ω) ε α} {f : α → Action (World σ ω) ε β}
    (hx : Speaks rt cause allowed x) (hf : ∀ a, Speaks rt cause allowed' (f a)) :
    Speaks rt cause (allowed ++ allowed') (x >>= f) :=
  hx.bind_ok fun a _ _ => hf a

/-- A silent procedure, and then another. -/
theorem silent_bind {x : Action (World σ ω) ε α} {f : α → Action (World σ ω) ε β}
    (hx : Speaks rt cause [] x) (hf : ∀ a w, (x w).1 = .ok a → Speaks rt cause allowed (f a)) :
    Speaks rt cause allowed (x >>= f) :=
  hx.bind_ok hf

/-- A procedure, and then a silent one. -/
theorem bind_silent {x : Action (World σ ω) ε α} {f : α → Action (World σ ω) ε β}
    (hx : Speaks rt cause allowed x) (hf : ∀ a, Speaks rt cause [] (f a)) :
    Speaks rt cause allowed (x >>= f) := by
  have h := hx.bind hf
  rwa [List.append_nil] at h

theorem ofExcept_bind {r : Except ε α} {f : α → Action (World σ ω) ε β}
    (hf : ∀ a, r = .ok a → Speaks rt cause allowed (f a)) :
    Speaks rt cause allowed (Action.ofExcept r >>= f) := by
  intro w
  cases r with
  | error e => exact ⟨[], by simp, .nil⟩
  | ok a => exact hf a rfl w

/-- Only the outcome is translated. -/
theorem mapError {ε' : Type} (f : ε → ε') {x : Action (World σ ω) ε α}
    (h : Speaks rt cause allowed x) :
    Speaks rt cause allowed (fun w => ((x w).1.mapError f, (x w).2) : Action (World σ ω) ε' α) := h

theorem ite {p : Prop} [Decidable p] {x y : Action (World σ ω) ε α} (hx : Speaks rt cause allowed x)
    (hy : Speaks rt cause allowed y) : Speaks rt cause allowed (if p then x else y) := by
  split
  · exact hx
  · exact hy

end Speaks

end CaviErp

import CaviErp.Fleet.Proofs.FlowProofs

/-!
# One answer for each request

Three agents are asked for something. Each publishes one message for every request that it survives, and none
for one that ends it; so its answers are those of its requests, one by one and in their order.
-/

namespace CaviErp

open Py

/-- The procedure publishes one message if it returns, and none if it raises. -/
def SpeaksOnce {σ ω ε : Type} (x : Action (World σ ω) ε Unit) : Prop :=
  ∀ w, (∃ post, (x w).1 = .ok () ∧ (x w).2.bus = w.bus ++ [post]) ∨
    ∃ e, (x w).1 = .error e ∧ (x w).2.bus = w.bus

namespace SpeaksOnce

variable {σ ω ε α : Type} {rt : Runtime} (infra : Infra)

theorem raise (e : ε) : SpeaksOnce (Action.raise e : Action (World σ ω) ε Unit) := fun _ => .inr ⟨e, rfl, rfl⟩

theorem ofExcept_bind {r : Except ε α} {x : α → Action (World σ ω) ε Unit}
    (h : ∀ a, r = .ok a → SpeaksOnce (x a)) : SpeaksOnce (Action.ofExcept r >>= x) := by
  intro w
  cases r with
  | error e => exact .inr ⟨e, rfl, rfl⟩
  | ok a => exact h a rfl w

theorem read_bind {x : World σ ω → Action (World σ ω) ε Unit} (h : ∀ w, SpeaksOnce (x w)) :
    SpeaksOnce (Action.read >>= x) := fun w => h w w

theorem mapError {ε' : Type} (f : ε → ε') {x : Action (World σ ω) ε Unit} (h : SpeaksOnce x) :
    SpeaksOnce (fun w => ((x w).1.mapError f, (x w).2) : Action (World σ ω) ε' Unit) := by
  intro w
  rcases h w with ⟨post, hr, hbus⟩ | ⟨e, hr, hbus⟩
  · exact .inl ⟨post, congrArg (Except.mapError f) hr, hbus⟩
  · exact .inr ⟨f e, congrArg (Except.mapError f) hr, hbus⟩

theorem emit (note : ω) (event : Event) :
    SpeaksOnce (BaseAgent.emit rt infra note event : Action (World σ ω) PyError Unit) := by
  intro w
  rcases BaseAgent.emit_cases rt infra note event w with ⟨e, he, -⟩ | ⟨-, -, ⟨e, he, -⟩ | he⟩
  · rw [he]
    exact .inr ⟨e, rfl, rfl⟩
  · rw [he]
    exact .inr ⟨e, rfl, rfl⟩
  · rw [he]
    exact .inl ⟨_, rfl, rfl⟩

theorem deadLetter (event : Event) (error : String) :
    SpeaksOnce (BaseAgent.deadLetter rt infra event error : Action (World σ ω) PyError Unit) := by
  intro w
  rcases BaseAgent.deadLetter_cases rt infra event error w with ⟨e, he, -⟩ | ⟨e, he, -⟩ | he
  · rw [he]
    exact .inr ⟨e, rfl, rfl⟩
  · rw [he]
    exact .inr ⟨e, rfl, rfl⟩
  · rw [he]
    exact .inl ⟨_, rfl, rfl⟩

/-- A message is refused once, or handled once. -/
theorem onMessage {handle : Event → Action (World σ ω) PyError Unit} (h : ∀ event, SpeaksOnce (handle event))
    (data : String) : SpeaksOnce (BaseAgent.onMessage rt infra handle { data := data }) := by
  intro w
  rcases onMessage_cases rt infra handle data w with
    ⟨e, -, hmessage⟩ | ⟨event, e, -, -, hmessage⟩ | ⟨event, -, -, hmessage⟩
  · rw [hmessage]
    exact .inr ⟨e, rfl, rfl⟩
  · rw [hmessage]
    exact deadLetter infra event e.text w
  · rw [hmessage]
    exact h event w

end SpeaksOnce

/-! ## The agents -/

theorem LedgerQueryAgent.handle_once (rt : Runtime) (env : Env) (event : Event) :
    SpeaksOnce (handle rt env event) := by
  refine .ofExcept_bind fun subject _ => .ofExcept_bind fun filters _ => .ofExcept_bind fun tenantId _ =>
    .ofExcept_bind fun platform _ => ?_
  cases env.querier.query tenantId platform subject (filters.getD (.obj [])) with
  | ok payload => exact .emit env.infra _ _
  | error reason => exact .ofExcept_bind fun payload _ => .emit env.infra _ _

theorem ErpMapperAgent.handle_once (rt : Runtime) (t : ErpTransformer) (env : Env) (event : Event) :
    SpeaksOnce (handle rt t env event) := by
  refine .ofExcept_bind fun tenantId _ => .ofExcept_bind fun sourceErp _ =>
    .ofExcept_bind fun sourceSchema _ => .ofExcept_bind fun targetSchema _ =>
      .ofExcept_bind fun record _ => .ofExcept_bind fun outcome _ => ?_
  cases outcome with
  | ok payload => exact .emit env.infra _ _
  | error reason => exact .emit env.infra _ _

theorem VaultAgent.handle_once {σ : Type} (rt : Runtime) (store : CredentialStore σ) (env : Env)
    (event : Event) : SpeaksOnce (handle rt store env event) := by
  refine .ofExcept_bind fun tenantId _ => .ofExcept_bind fun platform _ => .read_bind fun w => ?_
  cases Vault.vendToken store tenantId platform env.defaultTtl env.now w.self with
  | ok token => exact .emit env.infra _ _
  | error e =>
    cases e with
    | unsupportedPlatform text => exact .emit env.infra _ _
    | credentialNotFound text => exact .emit env.infra _ _
    | raised e => exact .raise e

namespace Fleet

variable {f : Fleet}

/-! ## Reactions -/

theorem once (r : Responder) (env : Env r.agent) (data : String) :
    SpeaksOnce (f.onMessage r.agent env { data := data }) := by
  cases r with
  | ledgerQuery => exact (SpeaksOnce.onMessage _ (LedgerQueryAgent.handle_once f.rt env) data).mapError _
  | erpMapper =>
    exact (SpeaksOnce.onMessage _ (ErpMapperAgent.handle_once f.rt f.transformer env) data).mapError _
  | vault =>
    exact (SpeaksOnce.onMessage _ (VaultAgent.handle_once f.rt f.backends.credentials env) data).mapError _

theorem replies_of_sent (r : Responder) {env : Env r.agent} {m : String × String} {s : f.network.State r.agent}
    {store : EventStore} {post : String × String}
    (h : post ∈ (f.network.react r.agent env m s store).sent) : Replies r.agent m post := by
  rcases sent_cases h with ⟨event, -, ⟨cause, hcause, kind, hkind, hevent⟩, rfl⟩ | ⟨event, error, hcause, rfl⟩
  · have hmapper : r.agent ≠ .mapper := by
      cases r <;> decide
    rw [repertoire, if_neg hmapper] at hkind
    obtain ⟨topic, htopic, rfl⟩ := List.mem_map.mp hkind
    exact .inl ⟨cause, event, hcause, ⟨topic, htopic, hevent⟩, rfl⟩
  · exact .inr ⟨event, error, hcause, rfl⟩

/-- A request that the agent survives is answered once; of one that ends it nothing is heard. -/
theorem letters_of_request (r : Responder) {x : f.network.Activation} (hwho : x.who = r.agent) :
    (x.reaction.alive = true ∧ ∃ post, x.letters = [⟨some r.agent, post⟩] ∧ Replies r.agent x.letter.body post) ∨
      (x.reaction.alive = false ∧ x.letters = []) := by
  obtain ⟨before, who, letter, env⟩ := x
  obtain rfl : who = r.agent := hwho
  have honce := once (f := f) r env letter.body.2
    { self := (before.state r.agent).1, store := before.shared, trace := (before.state r.agent).2 }
  generalize hx : Bus.Network.Activation.mk (N := f.network) before r.agent letter env = x at *
  rcases honce with ⟨post, hok, hbus⟩ | ⟨e, herror, hbus⟩
  · have hsent : x.reaction.sent = [post] := by
      rw [← hx]
      exact hbus
    refine .inl ⟨?_, post, ?_, ?_⟩
    · rw [← hx]
      exact congrArg Except.isOk hok
    · rw [Bus.Network.Activation.letters, hsent, ← hx]
      rfl
    · have hmem : post ∈ x.reaction.sent := by
        rw [hsent]
        exact List.mem_singleton_self post
      rw [← hx] at hmem ⊢
      exact replies_of_sent r hmem
  · refine .inr ⟨?_, ?_⟩
    · rw [← hx]
      exact congrArg Except.isOk herror
    · have hsent : x.reaction.sent = [] := by
        rw [← hx]
        exact hbus
      rw [Bus.Network.Activation.letters, hsent]
      rfl

/-- Lists in which each element that is kept gives one, and the others give none. -/
theorem forall₂_of_singles {α β : Type} {R : α → β → Prop} {p : α → Bool} {g : α → List β} {xs : List α}
    (h : ∀ x ∈ xs, (p x = true ∧ ∃ y, g x = [y] ∧ R x y) ∨ (p x = false ∧ g x = [])) :
    List.Forall₂ R (xs.filter p) (xs.flatMap g) := by
  induction xs with
  | nil => exact .nil
  | cons x xs ih =>
    have hrest := ih fun y hy => h y (List.mem_cons_of_mem _ hy)
    rw [List.flatMap_cons]
    rcases h x List.mem_cons_self with ⟨hp, y, hg, hr⟩ | ⟨hp, hg⟩
    · rw [List.filter_cons_of_pos hp, hg]
      exact .cons hr hrest
    · rw [List.filter_cons_of_neg (by simp [hp]), hg]
      exact hrest

/-! ## Runs -/

open Bus.Network.Config in
/-- **Each request is answered once.** In every run, whatever fails, is lost, delayed or redelivered: what the
agent has published answers the requests that it survived, one message each and in the order in which they
were read, in their business transactions or with their dead letters. -/
theorem requests_answered_in_order (f : Fleet) (selves : ∀ a, Self f.backends a) (store : EventStore)
    (running : AgentName → Bool) (steps : List f.network.Step) (r : Responder) :
    List.Forall₂ (fun (x : f.network.Activation) (l : Bus.Letter AgentName (String × String)) =>
        Replies r.agent x.letter.body l.body)
      (((f.start selves store running).history steps).filter fun x => x.who = r.agent && x.reaction.alive)
      (((f.start selves store running).run steps).sent.filter fun l => l.origin = some r.agent) := by
  have hsent := sent_of_process (f.start selves store running) steps r.agent
  have hnothing : ((f.start selves store running).sent.filter fun l => l.origin = some r.agent) = [] := rfl
  rw [hnothing, List.nil_append] at hsent
  rw [hsent]
  have hfilter : ((f.start selves store running).history steps).filter
      (fun x => x.who = r.agent && x.reaction.alive) =
        (((f.start selves store running).history steps).filter fun x => x.who = r.agent).filter
          fun x => x.reaction.alive := by
    rw [List.filter_filter]
    exact List.filter_congr fun x _ => Bool.and_comm _ _
  rw [hfilter]
  refine forall₂_of_singles fun x hx => ?_
  have hwho : x.who = r.agent := by simpa using (List.mem_filter.mp hx).2
  rcases letters_of_request r hwho with ⟨halive, post, hletters, hreplies⟩ | ⟨hdead, hletters⟩
  · exact .inl ⟨halive, _, hletters, hreplies⟩
  · exact .inr ⟨hdead, hletters⟩

end Fleet

end CaviErp

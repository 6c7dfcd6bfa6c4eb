import CaviErp.Forge.Proofs.CongruenceProofs
import CaviErp.Forge.Proofs.RecordingProofs
import CaviErp.Forge.Redelivery

/-!
# A redelivered proposal is another write

The agent keeps no record of the events it has handled. A redelivery is harmless exactly where the event
does not get through its dry run that time; then it changes nothing, and the rest of the run goes on as
without it.
-/

namespace CaviErp

open Py

namespace ForgeWriteAgent

/-! ## One redelivery -/

section Redelivery

variable {cfg : Config} {env : Env} {event : Event}

/-- A proposal or a reversal that does not get through leaves the attributes as they were. -/
theorem self_of_not_proposes {w : World}
    (hsub : event.subject = "forge.write.propose" ∨ event.subject = "forge.write.reverse")
    (h : ¬ ∃ op, Proposes env event w.self op) : (handle cfg env event w).2.self = w.self := by
  have hnames : ∀ writeId, ¬ Names event writeId := by
    rintro writeId ⟨hdecision, -⟩
    rcases hsub with hsub | hsub
    · rw [hsub] at hdecision
      simp at hdecision
    · rw [hsub] at hdecision
      simp at hdecision
  have hcourse := handle_course cfg env event w
  generalize handle cfg env event w = r at hcourse
  cases hcourse with
  | idle r => rfl
  | quarantined error => exact BaseAgent.deadLetter_self ..
  | proposed hp => exact absurd ⟨_, hp⟩ h
  | retried happroval _ _ => exact absurd happroval.names (hnames _)
  | approved happroval _ _ _ => exact absurd happroval.names (hnames _)
  | rejected hrefusal _ _ => exact absurd hrefusal.names (hnames _)

theorem pending_of_proposes {w : World} {op : WriteOperation} (h : Proposes env event w.self op) :
    (handle cfg env event w).2.self.pending op.writeId = some op := by
  rw [handle_of_proposes h, emit_self]
  simp [pended]

theorem executed_pending {op : WriteOperation} {v v' : View} {ok : Bool}
    (h : Executed cfg env event op v ok v') (writeId : String) :
    v'.pending writeId = v.pending writeId ∨ v'.pending writeId = none := by
  have hfinish : ∀ u : View, u.pending = v.pending → ∀ op',
      (u.finish op.writeId op').pending writeId = v.pending writeId ∨
        (u.finish op.writeId op').pending writeId = none := by
    intro u hu op'
    by_cases hid : writeId = op.writeId
    · exact .inr (by simp [View.finish, hid])
    · exact .inl (by simp [View.finish, hid, hu])
  cases h with
  | refused => exact .inl rfl
  | failed _ => exact .inl rfl
  | unannounced _ _ => exact hfinish (v.tell _) rfl _
  | completed _ _ => exact hfinish (v.tell _) rfl { op with state := .completed }

/-- A call makes no write pending but the one that it minted. -/
theorem handled_pending {v v' : View} {ok : Bool} (h : Handled cfg env event v ok v')
    {writeId : String} (hnone : v.pending writeId = none) (hnew : writeId ≠ env.coordinator.newId) :
    v'.pending writeId = none := by
  have hput : ∀ id op, id ≠ writeId → (v.put id op).pending writeId = none := by
    intro id op hne
    simp [View.put, Ne.symm hne, hnone]
  have hother : ∀ {id op}, v.pending id = some op → id ≠ writeId := by
    rintro id op hop rfl
    rw [hnone] at hop
    cases hop
  cases h with
  | idle => exact hnone
  | unannounced hid _ => exact hput _ _ fun heq => hnew (heq.symm.trans hid)
  | proposed hid _ _ => exact hput _ _ fun heq => hnew (heq.symm.trans hid)
  | retried _ _ hex =>
    rcases executed_pending hex writeId with hsame | hgone
    · rw [hsame]
      exact hnone
    · exact hgone
  | unapproved hop _ => exact hput _ _ (hother hop)
  | approved _ hop _ _ hex =>
    rcases executed_pending hex writeId with hsame | hgone
    · rw [hsame]
      exact hput _ _ (hother hop)
    · exact hgone
  | unrejected hop _ => simp [View.pop, Ne.symm (hother hop), hnone]
  | rejected _ hop _ _ => simp [View.pop, View.tell, Ne.symm (hother hop), hnone]

theorem served_minted (cfg : Config) (calls : List (Env × Event)) {writeId : String}
    (h : writeId ∉ newIds calls) : (served cfg calls).self.pending writeId = none := by
  induction calls using List.reverseRecOn with
  | nil => rfl
  | append_singleton calls c ih =>
    simp only [newIds, List.map_append, List.map_cons, List.map_nil, List.mem_append,
      List.mem_singleton, not_or] at h
    rw [served_snoc]
    exact handled_pending (handle_spec _) (ih h.1) h.2

end Redelivery

/-! ## Runs -/

section Runs

variable (cfg : Config)

/-- The write is pending at some point of a run from the given world. -/
def EverPending (w : World) (calls : List (Env × Event)) (writeId : String) : Prop :=
  ∃ before, before <+: calls ∧
    (Action.serve (fun c => handle cfg c.1 c.2) w before).self.pending writeId ≠ none

theorem everPending_nil {w : World} {writeId : String} :
    EverPending cfg w [] writeId ↔ w.self.pending writeId ≠ none := by
  constructor
  · rintro ⟨before, hbefore, hne⟩
    rw [List.prefix_nil.mp hbefore] at hne
    exact hne
  · intro hne
    exact ⟨[], List.prefix_refl _, hne⟩

theorem everPending_cons {w : World} {c : Env × Event} {calls : List (Env × Event)}
    {writeId : String} :
    EverPending cfg w (c :: calls) writeId ↔
      w.self.pending writeId ≠ none ∨ EverPending cfg (handle cfg c.1 c.2 w).2 calls writeId := by
  constructor
  · rintro ⟨before, hbefore, hne⟩
    rcases List.prefix_cons_iff.mp hbefore with rfl | ⟨later, rfl, hlater⟩
    · exact .inl hne
    · exact .inr ⟨later, hlater, hne⟩
  · rintro (hne | ⟨before, hbefore, hne⟩)
    · exact ⟨[], List.nil_prefix, hne⟩
    · exact ⟨c :: before, (List.prefix_cons_inj c).mpr hbefore, hne⟩

theorem everPending_of_pending {w : World} (calls : List (Env × Event)) {writeId : String}
    (h : w.self.pending writeId ≠ none) : EverPending cfg w calls writeId :=
  ⟨[], List.nil_prefix, h⟩

/-- Every redelivery among the calls fails to get through, in the state that it finds. -/
def RedeliveriesFail (before : List (Env × Event)) : World → List (Env × Event) → Prop
  | _, [] => True
  | w, c :: rest =>
    (Redelivered before c.2 → ¬ ∃ op, Proposes c.1 c.2 w.self op) ∧
      RedeliveriesFail (before ++ [c]) (handle cfg c.1 c.2 w).2 rest

/-- Taking out redeliveries that fail changes nothing: the two runs stay in step. -/
theorem everPending_firstDeliveries {before rest : List (Env × Event)} {w w' : World}
    {writeId : String} (h : RedeliveriesFail cfg before w rest) (hself : w.self = w'.self) :
    EverPending cfg w rest writeId ↔ EverPending cfg w' (firstDeliveries before rest) writeId := by
  induction rest generalizing before w w' with
  | nil => rw [firstDeliveries, everPending_nil, everPending_nil, hself]
  | cons c rest ih =>
    obtain ⟨hc, hrest⟩ := h
    rw [everPending_cons, firstDeliveries]
    by_cases hr : Redelivered before c.2
    · rw [if_pos hr]
      have hsame : (handle cfg c.1 c.2 w).2.self = w'.self :=
        (self_of_not_proposes hr.1 (hc hr)).trans hself
      rw [← ih hrest hsame]
      constructor
      · rintro (hne | hever)
        · refine everPending_of_pending cfg rest ?_
          rw [hsame, ← hself]
          exact hne
        · exact hever
      · exact .inr
    · rw [if_neg hr, everPending_cons, hself]
      have hstep := (sameSelf_congruence.handle_respects cfg c.1 c.2 (fun _ _ _ => trivial)
        (fun _ _ _ => trivial) w w' hself).2
      rw [ih hrest hstep]

end Runs

theorem redeliveriesFail_of_splits {cfg : Config} {before rest : List (Env × Event)}
    (h : ∀ mid c after, rest = mid ++ c :: after → Redelivered (before ++ mid) c.2 →
      ¬ ∃ op, Proposes c.1 c.2 (served cfg (before ++ mid)).self op) :
    RedeliveriesFail cfg before (served cfg before) rest := by
  induction rest generalizing before with
  | nil => trivial
  | cons c rest ih =>
    refine ⟨?_, ?_⟩
    · intro hr
      have hc := h [] c rest rfl
      rw [List.append_nil] at hc
      exact hc hr
    · rw [← served_snoc]
      refine ih ?_
      intro mid d after hsplit
      have hd := h (c :: mid) d after (by rw [hsplit, List.cons_append])
      rw [List.append_assoc]
      exact hd

/-- **Redelivery is harmless exactly where it fails.** For every run with ids that do not repeat: no
redelivered proposal or reversal adds a pending write, and the run proposes the writes that it proposes
without redeliveries, if and only if no redelivered event gets through its dry run in the state that it
finds. -/
theorem redelivery_harmless_iff (cfg : Config) (calls : List (Env × Event))
    (hids : (newIds calls).Nodup) :
    Harmless cfg calls ↔ ∀ before c after, calls = before ++ c :: after → Redelivered before c.2 →
      ¬ ∃ op, Proposes c.1 c.2 (served cfg before).self op := by
  constructor
  · rintro hharmless before c after hsplit hr ⟨op, hp⟩
    -- the id is new, so the write was not pending before
    have hfresh : op.writeId ∉ newIds before := by
      rw [hsplit] at hids
      simp only [newIds, List.map_append, List.map_cons] at hids
      have hdisjoint := (List.nodup_append.mp hids).2.2
      intro hmem
      refine hdisjoint _ hmem _ List.mem_cons_self ?_
      exact hp.minted.1
    have hnone := hharmless.adds before c after hsplit hr op.writeId (served_minted cfg before hfresh)
    rw [served_snoc, pending_of_proposes hp] at hnone
    cases hnone
  · intro h
    refine ⟨?_, ?_⟩
    · intro before c after hsplit hr writeId hnone
      rw [served_snoc, self_of_not_proposes hr.1 (h before c after hsplit hr)]
      exact hnone
    · intro writeId
      refine everPending_firstDeliveries cfg (redeliveriesFail_of_splits ?_) rfl
      intro mid c after hsplit
      exact h mid c after hsplit

/-! ## The proposal of an order, delivered twice -/

/-- A call during which the ERP cannot be read. -/
def unreadableEnv (n newId : String) : Env where
  coordinator := {
    writer := fun _ => .error "down"
    reader := some fun _ => .error "down"
    clock := fun _ => "2026-01-01T00:00:00+00:00"
    newId := newId }
  uuid := (orderEnv n newId fun _ => .error "down").uuid
  breakerClock := ⟨0, 0, 0⟩

theorem unreadable_not_proposes (n newId : String) (total : Int) (self : ForgeWriteAgent) :
    ¬ ∃ op, Proposes (unreadableEnv n newId) (orderProposal total) self op := by
  rintro ⟨op, hp⟩
  cases hp with
  | proposal _ hr hop =>
    obtain rfl := Except.ok.inj hr
    cases hop
  | reversal hsub => simp [orderProposal] at hsub

/-- The redelivery comes when the ERP cannot be read. -/
def unreadableRedelivery : List (Env × Event) :=
  [(orderEnv "0" "w-1" fun _ => .error "down", orderProposal 10),
    (unreadableEnv "1" "w-2", orderProposal 10)]

/-- The hypothesis of `redelivery_harmless_iff` holds for the run, and so does its condition. -/
theorem redelivery_harmless_unreadable : Harmless orderConfig unreadableRedelivery := by
  refine (redelivery_harmless_iff orderConfig unreadableRedelivery (by decide)).mpr ?_
  intro before c after hsplit hr
  cases before with
  | nil =>
    obtain ⟨-, d, hd, -⟩ := hr
    cases hd
  | cons d before =>
    obtain ⟨-, hsplit⟩ := List.cons.inj hsplit
    obtain rfl : (unreadableEnv "1" "w-2", orderProposal 10) = c := by
      cases before with
      | nil => exact (List.cons.inj hsplit).1
      | cons _ _ => simp at hsplit
    exact unreadable_not_proposes _ _ _ _

/-- The redelivery comes while the ERP can be read, or no reader is configured. -/
def repeatedProposal : List (Env × Event) :=
  [(orderEnv "0" "w-1" fun _ => .error "down", orderProposal 10),
    (orderEnv "1" "w-2" fun _ => .error "down", orderProposal 10)]

/-- The order is pending twice. -/
theorem repeated_proposal_adds_write :
    (newIds repeatedProposal).Nodup ∧ ¬ Harmless orderConfig repeatedProposal := by
  refine ⟨by decide, ?_⟩
  intro h
  have hnone := h.adds (repeatedProposal.take 1) repeatedProposal[1] [] rfl
    ⟨.inl rfl, _, List.mem_cons_self, rfl⟩ "w-2" rfl
  have hpending : (served orderConfig repeatedProposal).self.pending "w-2" ≠ none := by
    decide +kernel
  exact hpending hnone

end ForgeWriteAgent

end CaviErp

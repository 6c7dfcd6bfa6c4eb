import CaviErp.Forge.AuditLog
import CaviErp.Forge.Proofs.ContractProofs
import CaviErp.Forge.Proofs.LifecycleProofs
import Mathlib.Data.Finset.Basic

/-!
# The log determines the writes, where it can be read

`LogStep` reads a log in one way only, and the log of a linkable run is read as what the run applied to
the ERP. So two linkable runs with one log applied the same. Without the condition they need not: two
proposals of one kind leave the same log with their ids swapped.
-/

namespace CaviErp

open Py Replay

namespace ForgeWriteAgent

/-! ## One reading -/

/-- A kind with one content: taking one write of that kind away is taking away a definite one. -/
theorem cons_unique {k : Kind} {c c' : Content} {rest rest' : Multiset (Kind × Content)}
    (h : (k, c) ::ₘ rest = (k, c') ::ₘ rest') (honly : ∀ x ∈ rest, x.1 = k → x.2 = c) :
    c = c' ∧ rest = rest' := by
  have hc : c = c' := by
    have hmem : (k, c') ∈ (k, c) ::ₘ rest := by rw [h]; exact Multiset.mem_cons_self _ _
    rcases Multiset.mem_cons.mp hmem with heq | hrest
    · exact (Prod.mk.inj heq).2.symm
    · exact (honly (k, c') hrest rfl).symm
  subst hc
  exact ⟨rfl, (Multiset.cons_inj_right _).mp h⟩

theorem logStep_unique (event : Event) (p q q' : Projection) (h : LogStep event p q)
    (h' : LogStep event p q') : q = q' := by
  cases h with
  | requested hsub =>
    cases h' with
    | requested _ => rfl
    | approved hsub' => simp [hsub] at hsub'
    | rejected hsub' => simp [hsub] at hsub'
    | completed hsub' => simp [hsub] at hsub'
  | approved hsub hid hp honly =>
    cases h' with
    | requested hsub' => simp [hsub] at hsub'
    | approved _ hid' hp' _ =>
      obtain ⟨rfl, rfl⟩ := cons_unique (hp.symm.trans hp') honly
      obtain rfl := Json.str.inj (hid.symm.trans hid')
      rfl
    | rejected hsub' => simp [hsub] at hsub'
    | completed hsub' => simp [hsub] at hsub'
  | rejected hsub hp honly =>
    cases h' with
    | requested hsub' => simp [hsub] at hsub'
    | approved hsub' => simp [hsub] at hsub'
    | rejected _ hp' _ =>
      obtain ⟨-, rfl⟩ := cons_unique (hp.symm.trans hp') honly
      rfl
    | completed hsub' => simp [hsub] at hsub'
  | completed hsub hid hc =>
    cases h' with
    | requested hsub' => simp [hsub] at hsub'
    | approved hsub' => simp [hsub] at hsub'
    | rejected hsub' => simp [hsub] at hsub'
    | completed _ hid' hc' =>
      obtain rfl := Json.str.inj (hid.symm.trans hid')
      obtain rfl := Option.some.inj (hc.symm.trans hc')
      rfl

/-! ## The trace -/

theorem emittedOf_tell_emitted (v : View) (env : Env) (event : Event) (step : WriteStep) :
    emittedOf (v.tell (obsOf env event step)).trace =
      emittedOf v.trace ++ [stepEvent env step event.correlationId] := by
  simp [emittedOf, View.tell, obsOf]

theorem emittedOf_tell_applied (v : View) (op : WriteOperation) (outcome : Except String Obj) :
    emittedOf (v.tell (.applied op outcome)).trace = emittedOf v.trace := by
  simp [emittedOf, View.tell]

theorem appliedSet_tell_emitted (v : View) (env : Env) (event : Event) (step : WriteStep) :
    appliedSet (v.tell (obsOf env event step)).trace = appliedSet v.trace := by
  simp [appliedSet, appliedOf, View.tell, obsOf]

theorem appliedSet_tell_failed (v : View) (op : WriteOperation) (text : String) :
    appliedSet (v.tell (.applied op (.error text))).trace = appliedSet v.trace := by
  simp [appliedSet, appliedOf, View.tell]

theorem appliedSet_tell_applied (v : View) (op : WriteOperation) (confirmation : Obj) :
    appliedSet (v.tell (.applied op (.ok confirmation))).trace =
      insert ((content op).effect op.writeId) (appliedSet v.trace) := by
  ext x
  simp only [appliedSet, appliedOf, View.tell, List.filterMap_append, List.filterMap_cons,
    List.filterMap_nil, Set.mem_ofPred_eq, List.mem_append, List.mem_singleton, Set.mem_insert_iff]
  rw [or_comm]
  rfl

/-! ## The invariant -/

/-- The log so far is read as `p`, which is right about the ERP. -/
structure Readable (v : View) (p : Projection) : Prop where
  reads : Reads LogStep (emittedOf v.trace) {} p
  applied : p.applied = appliedSet v.trace

/-- What the log says about an undecided write. -/
def request (op : WriteOperation) : Kind × Content := (kind op, content op)

/-- The writes that wait for a decision. -/
def Undecided (v : View) (ops : Finset WriteOperation) : Prop :=
  ∀ op, op ∈ ops ↔ v.pending op.writeId = some op ∧ op.state = .requested

/-- The log so far is read as `p`, which is right about the pending writes too. -/
structure Projects (v : View) (p : Projection) : Prop extends Readable v p where
  undecided : ∃ ops, Undecided v ops ∧ p.undecided = ops.val.map request
  approved : ∀ writeId op, v.pending writeId = some op → op.state = .approved →
    p.approved writeId = some (content op) ∧ Named op

/-- What a call leaves of the log: the invariant, or a log that is right about the ERP where the call
raised. -/
def StillRead (ok : Bool) (v : View) : Prop :=
  (∃ p, Projects v p) ∨ (ok = false ∧ ∃ p, Readable v p)

theorem Undecided.insert {v : View} {ops : Finset WriteOperation} {op : WriteOperation}
    (h : Undecided v ops) (hnew : v.pending op.writeId = none) (hstate : op.state = .requested) :
    op ∉ ops ∧ Undecided (v.put op.writeId op) (insert op ops) := by
  refine ⟨?_, ?_⟩
  · intro hmem
    have := ((h op).mp hmem).1
    rw [hnew] at this
    cases this
  · intro op'
    rw [Finset.mem_insert, h op']
    show _ ↔ Function.update v.pending op.writeId (some op) op'.writeId = some op' ∧ _
    by_cases hid : op'.writeId = op.writeId
    · rw [hid, Function.update_self, hnew]
      constructor
      · rintro (rfl | ⟨hp, -⟩)
        · exact ⟨rfl, hstate⟩
        · cases hp
      · rintro ⟨hp, -⟩
        exact .inl (Option.some.inj hp).symm
    · rw [Function.update_of_ne hid]
      constructor
      · rintro (rfl | hp)
        · exact absurd rfl hid
        · exact hp
      · exact .inr

/-- A decision takes a write out of the undecided ones, whether it stays pending or not. -/
theorem Undecided.erase {v : View} {ops : Finset WriteOperation} {op : WriteOperation}
    (h : Undecided v ops) (hp : v.pending op.writeId = some op) {x : Option WriteOperation}
    (hx : ∀ op', x = some op' → op'.state ≠ .requested) :
    Undecided { v with pending := Function.update v.pending op.writeId x } (ops.erase op) := by
  intro op'
  rw [Finset.mem_erase, h op']
  show _ ↔ Function.update v.pending op.writeId x op'.writeId = some op' ∧ _
  by_cases hid : op'.writeId = op.writeId
  · rw [hid, Function.update_self, hp]
    constructor
    · rintro ⟨hne, hsome, -⟩
      exact absurd (Option.some.inj hsome).symm hne
    · rintro ⟨hsome, hstate⟩
      exact absurd hstate (hx op' hsome)
  · rw [Function.update_of_ne hid]
    constructor
    · exact And.right
    · intro h'
      refine ⟨?_, h'⟩
      rintro rfl
      exact hid rfl

/-- The undecided writes, with one of them taken out, and its kind's content. -/
theorem Undecided.split {event : Event} {v : View} {ops : Finset WriteOperation} {op : WriteOperation}
    (h : Undecided v ops) (hclear : Clear event v) (hnames : Names event op.writeId)
    (hp : v.pending op.writeId = some op) (hstate : op.state = .requested) :
    ops.val.map request = (kind op, content op) ::ₘ (ops.erase op).val.map request ∧
      ∀ x ∈ (ops.erase op).val.map request, x.1 = kind op → x.2 = content op := by
  refine ⟨?_, ?_⟩
  · have hmem : op ∈ ops.val := (h op).mpr ⟨hp, hstate⟩
    rw [Finset.erase_val, ← Multiset.cons_erase hmem, Multiset.map_cons, Multiset.erase_cons_head]
    rfl
  · intro x hx hkind
    obtain ⟨op', hop', rfl⟩ := Multiset.mem_map.mp hx
    obtain ⟨hp', hstate'⟩ := (h op').mp (Finset.mem_of_mem_erase hop')
    exact hclear op.writeId op hnames hp hstate op'.writeId op' hp' hstate' hkind

/-! ## One call -/

variable {cfg : Config} {env : Env} {event : Event} {dir : String}
  {complaint : Schema → Json → String}

/-- An observation the log does not show and that leaves the ERP alone. -/
theorem Projects.tell_failed {v : View} {p : Projection} (h : Projects v p) (op : WriteOperation)
    (text : String) : Projects (v.tell (.applied op (.error text))) p where
  reads := by rw [emittedOf_tell_applied]; exact h.reads
  applied := by rw [appliedSet_tell_failed]; exact h.applied
  undecided := h.undecided
  approved := h.approved

theorem executed_read {op : WriteOperation} {v v' : View} {ok : Bool} {p : Projection}
    (hex : Executed cfg env event op v ok v') (hreg : cfg.rt.registry = .repository dir complaint)
    (hstore : ∀ ev : Event, ev.subject = "forge.write.completed" → env.infra.recordEvent ev = none)
    (h : Projects v p) (hp : v.pending op.writeId = some op) (hstate : op.state = .approved) :
    ∃ p', Projects v' p' := by
  obtain ⟨hcontent, hnamed⟩ := h.approved op.writeId op hp hstate
  cases hex with
  | refused => exact ⟨p, h⟩
  | failed _ => exact ⟨p, h.tell_failed op _⟩
  | unannounced _ hwhy =>
    -- a write that was approved can be announced as completed
    rcases hwhy with hwhy | hwhy
    · exact absurd ((valid_completed_iff hreg).mpr hnamed) hwhy
    · exact absurd (hstore _ rfl) hwhy
  | completed _ _ =>
    rename_i confirmation _ _
    refine ⟨{ p with applied := insert ((content op).effect op.writeId) p.applied }, ?_⟩
    obtain ⟨ops, hops, hundecided⟩ := h.undecided
    refine ⟨⟨?_, ?_⟩, ⟨ops, ?_, hundecided⟩, ?_⟩
    · rw [emittedOf_tell_emitted]
      show Reads LogStep (emittedOf (v.tell (.applied op (.ok confirmation))).trace ++ _) _ _
      rw [emittedOf_tell_applied]
      exact h.reads.snoc (.completed rfl rfl hcontent)
    · rw [appliedSet_tell_emitted]
      show _ = appliedSet (v.tell (.applied op (.ok confirmation))).trace
      rw [appliedSet_tell_applied, h.applied]
    · intro op'
      rw [hops op']
      show _ ↔ Function.update v.pending op.writeId none op'.writeId = some op' ∧ _
      by_cases hid : op'.writeId = op.writeId
      · rw [hid, Function.update_self, hp]
        constructor
        · rintro ⟨hsome, hst⟩
          obtain rfl := Option.some.inj hsome
          rw [hstate] at hst
          cases hst
        · rintro ⟨hsome, -⟩
          cases hsome
      · rw [Function.update_of_ne hid]
    · intro writeId op' hop' hstate'
      rcases update_eq_some hop' with ⟨-, hnone⟩ | ⟨-, hold⟩
      · cases hnone
      · exact h.approved writeId op' hold hstate'

theorem Projects.approve {v : View} {p : Projection} {op : WriteOperation} {reviewer : Json}
    (h : Projects v p) (hclear : Clear event v) (hnames : Names event op.writeId)
    (hp : v.pending op.writeId = some op) (hstate : op.state = .requested) (hnamed : Named op) :
    ∃ p', Projects ((v.put op.writeId { op with state := .approved }).tell
      (obsOf env event (approvedStep env.coordinator op reviewer))) p' := by
  obtain ⟨ops, hops, hundecided⟩ := h.undecided
  obtain ⟨hsplit, honly⟩ := hops.split hclear hnames hp hstate
  refine ⟨{ p with
    undecided := (ops.erase op).val.map request
    approved := Function.update p.approved op.writeId (some (content op)) }, ⟨?_, ?_⟩,
    ⟨ops.erase op, hops.erase hp ?_, rfl⟩, ?_⟩
  · rw [emittedOf_tell_emitted]
    exact h.reads.snoc (.approved rfl rfl (hundecided.trans hsplit) honly)
  · rw [appliedSet_tell_emitted]
    exact h.applied
  · intro op' hop'
    obtain rfl := Option.some.inj hop'
    simp
  · intro writeId op' hop' hstate'
    show Function.update p.approved op.writeId (some (content op)) writeId = some (content op') ∧ _
    rcases update_eq_some hop' with ⟨hid, hsome⟩ | ⟨hid, hold⟩
    · obtain rfl := Option.some.inj hsome
      rw [hid, Function.update_self]
      exact ⟨rfl, hnamed.tenantId, hnamed.erpPlatform, hnamed.operation, hnamed.writeId⟩
    · rw [Function.update_of_ne hid]
      exact h.approved writeId op' hold hstate'

theorem Projects.reject {v : View} {p : Projection} {op : WriteOperation} {reviewer reason : Json}
    (h : Projects v p) (hclear : Clear event v) (hnames : Names event op.writeId)
    (hp : v.pending op.writeId = some op) (hstate : op.state = .requested) :
    ∃ p', Projects ((v.pop op.writeId).tell
      (obsOf env event (rejectedStep env.coordinator op reviewer reason))) p' := by
  obtain ⟨ops, hops, hundecided⟩ := h.undecided
  obtain ⟨hsplit, honly⟩ := hops.split hclear hnames hp hstate
  refine ⟨{ p with undecided := (ops.erase op).val.map request }, ⟨?_, ?_⟩,
    ⟨ops.erase op, hops.erase hp (by simp), rfl⟩, ?_⟩
  · rw [emittedOf_tell_emitted]
    exact h.reads.snoc (.rejected rfl (hundecided.trans hsplit) honly)
  · rw [appliedSet_tell_emitted]
    exact h.applied
  · intro writeId op' hop' hstate'
    rcases update_eq_some hop' with ⟨-, hnone⟩ | ⟨-, hold⟩
    · cases hnone
    · exact h.approved writeId op' hold hstate'

theorem Projects.propose {v : View} {p : Projection} {op : WriteOperation} (h : Projects v p)
    (hnew : v.pending op.writeId = none) (hstate : op.state = .requested) :
    ∃ p', Projects ((v.put op.writeId op).tell
      (obsOf env event (requestedStep env.coordinator op))) p' := by
  obtain ⟨ops, hops, hundecided⟩ := h.undecided
  obtain ⟨hnot, hops'⟩ := hops.insert hnew hstate
  refine ⟨{ p with undecided := request op ::ₘ p.undecided }, ⟨?_, ?_⟩, ⟨insert op ops, hops', ?_⟩, ?_⟩
  · rw [emittedOf_tell_emitted]
    exact h.reads.snoc (.requested rfl)
  · rw [appliedSet_tell_emitted]
    exact h.applied
  · rw [Finset.insert_val_of_notMem hnot, Multiset.map_cons, ← hundecided]
  · intro writeId op' hop' hstate'
    rcases update_eq_some hop' with ⟨-, hsome⟩ | ⟨-, hold⟩
    · obtain rfl := Option.some.inj hsome
      rw [hstate] at hstate'
      cases hstate'
    · exact h.approved writeId op' hold hstate'

/-- What one call leaves of the log. -/
theorem handled_read {v v' : View} {ok : Bool} {p : Projection} (h : Handled cfg env event v ok v')
    (hreg : cfg.rt.registry = .repository dir complaint)
    (hstore : ∀ ev : Event, ev.subject = "forge.write.completed" → env.infra.recordEvent ev = none)
    (hclear : Clear event v) (ha : ∀ writeId, Agrees writeId v)
    (hnew : Unknown env.coordinator.newId v) (hp : Projects v p) : StillRead ok v' := by
  cases h with
  | idle => exact .inl ⟨p, hp⟩
  | unannounced _ _ => exact .inr ⟨rfl, p, hp.reads, hp.applied⟩
  | proposed hid hstate _ =>
    refine .inl (hp.propose ?_ hstate)
    rw [hid]
    exact hnew.pending
  | retried hop hstate hex =>
    obtain ⟨rfl, -, -⟩ := (ha _).of_pending hop
    exact .inl (executed_read hex hreg hstore hp hop hstate)
  | unapproved _ _ => exact .inr ⟨rfl, p, hp.reads, hp.applied⟩
  | approved hnames hop hstate hv hex =>
    obtain ⟨rfl, -, -⟩ := (ha _).of_pending hop
    obtain ⟨p', hp'⟩ := hp.approve hclear hnames hop hstate ((valid_approved_iff hreg).mp hv).1
    refine .inl (executed_read hex hreg hstore hp' ?_ rfl)
    simp [View.put, View.tell]
  | unrejected _ _ => exact .inr ⟨rfl, p, hp.reads, hp.applied⟩
  | rejected hnames hop hstate _ =>
    obtain ⟨rfl, -, -⟩ := (ha _).of_pending hop
    exact .inl (hp.reject hclear hnames hop hstate)

/-! ## Runs -/

/-- The log of a linkable run is read as what the run applied. -/
theorem handleAll_read {calls : List (Env × Event)}
    (hreg : cfg.rt.registry = .repository dir complaint) (hids : (newIds calls).Nodup)
    (hlink : Linkable cfg calls) :
    ∃ p, Readable (view (handleAll cfg calls { self := {} }).2) p := by
  -- the invariant speaks of the calls already made, since `Linkable` does
  let I : List (Env × Event) → World → Prop := fun rest w =>
    (∃ pre, calls = pre ++ rest ∧ handleAll cfg pre { self := {} } = (.ok (), w)) ∧
      Consistent rest (view w) ∧ ∃ p, Projects (view w) p
  have hstep : ∀ c rest w, I (c :: rest) w →
      ((handle cfg c.1 c.2 w).1 = .ok () → I rest (handle cfg c.1 c.2 w).2) ∧
      (∀ e, (handle cfg c.1 c.2 w).1 = .error e →
        ∃ p, Readable (view (handle cfg c.1 c.2 w).2) p) := by
    rintro c rest w ⟨⟨pre, hcalls, hpre⟩, hcons, p, hp⟩
    have hl := hlink pre c rest hcalls (by rw [hpre])
    rw [hpre] at hl
    have hread : StillRead (handle cfg c.1 c.2 w).1.isOk (view (handle cfg c.1 c.2 w).2) :=
      handled_read (handle_spec w) hreg hl.2 hl.1 hcons.agrees (hcons.fresh _ List.mem_cons_self) hp
    refine ⟨?_, ?_⟩
    · intro hok
      refine ⟨⟨pre ++ [c], by simp [hcalls], ?_⟩, (hcons.step cfg).1 hok, ?_⟩
      · unfold handleAll at hpre ⊢
        rw [Action.forEach_append, hpre]
        simp only [Action.forEach_cons, Action.forEach_nil]
        rcases hw : handle cfg c.1 c.2 w with ⟨r, w'⟩
        obtain rfl : r = .ok () := by rw [hw] at hok; exact hok
        rfl
      · rcases hread with h | ⟨h, -⟩
        · exact h
        · rw [hok] at h
          cases h
    · intro e _
      rcases hread with ⟨p', hp'⟩ | ⟨-, h⟩
      · exact ⟨p', hp'.toReadable⟩
      · exact h
  have hinit : I calls { self := {} } := by
    refine ⟨⟨[], rfl, rfl⟩, .init hids, {}, ⟨rfl, by simp [appliedSet, appliedOf, view]⟩,
      ⟨∅, by intro op; simp [view], rfl⟩, ?_⟩
    intro writeId op hop
    cases hop
  obtain ⟨hok, herr⟩ := Action.forEach_induct
    (R := fun w : World => ∃ p, Readable (view w) p) hstep calls { self := {} } hinit
  cases hr : (handleAll cfg calls { self := {} }).1 with
  | ok u =>
    obtain ⟨p, hp⟩ := (hok hr).2.2
    exact ⟨p, hp.toReadable⟩
  | error e => exact herr e hr

/-- Two linkable runs with the same log applied the same to the ERP, whatever ids they minted and
whatever writer, reader, store, bus and clocks did in each. -/
theorem log_determines_writes (cfg₁ cfg₂ : Config) (calls₁ calls₂ : List (Env × Event))
    (hreg₁ : cfg₁.rt.registry = .repository dir complaint)
    (hreg₂ : cfg₂.rt.registry = .repository dir complaint)
    (hids₁ : (newIds calls₁).Nodup) (hids₂ : (newIds calls₂).Nodup)
    (hlink₁ : Linkable cfg₁ calls₁) (hlink₂ : Linkable cfg₂ calls₂)
    (hlog : emittedOf (handleAll cfg₁ calls₁ { self := {} }).2.trace =
      emittedOf (handleAll cfg₂ calls₂ { self := {} }).2.trace) :
    appliedSet (handleAll cfg₁ calls₁ { self := {} }).2.trace =
      appliedSet (handleAll cfg₂ calls₂ { self := {} }).2.trace := by
  obtain ⟨p₁, hp₁⟩ := handleAll_read hreg₁ hids₁ hlink₁
  obtain ⟨p₂, hp₂⟩ := handleAll_read hreg₂ hids₂ hlink₂
  have hreads : Reads LogStep (emittedOf (handleAll cfg₁ calls₁ { self := {} }).2.trace) {} p₂ := by
    rw [hlog]
    exact hp₂.reads
  obtain rfl : p₁ = p₂ := Reads.unique logStep_unique hp₁.reads hreads
  exact hp₁.applied.symm.trans hp₂.applied

/-! ## Two runs with one log -/

/-- The order of `orderRun`, with one more failure before the write goes through. -/
def slowOrderRun : List (Env × Event) :=
  [(orderEnv "0" "w-1" fun _ => .error "down", orderProposal 10),
    (orderEnv "1" "w-4" fun _ => .error "down", approval "w-1"),
    (orderEnv "3" "w-5" fun _ => .error "down", approval "w-1"),
    (orderEnv "2" "w-6" fun _ => .ok [("id", .int 7)], approval "w-1")]

theorem clear_of_single {v : View} (event : Event) (op : Option WriteOperation)
    (h : v.pending = Function.update (fun _ => none) "w-1" op) : Clear event v := by
  intro writeId op' _ hop _ writeId' op'' hop' _ _
  rw [h] at hop hop'
  rcases update_eq_some hop with ⟨-, hsome⟩ | ⟨-, hnone⟩
  · rcases update_eq_some hop' with ⟨-, hsome'⟩ | ⟨-, hnone⟩
    · rw [Option.some.inj (hsome.symm.trans hsome')]
    · cases hnone
  · cases hnone

theorem linkable_nil (cfg : Config) : Linkable cfg [] := by
  intro pre c post hcalls
  simp at hcalls

theorem Linkable.snoc {cfg : Config} {calls : List (Env × Event)} {c : Env × Event}
    (h : Linkable cfg calls) (hclear : Clear c.2 (view (handleAll cfg calls { self := {} }).2))
    (hstore : ∀ ev : Event, ev.subject = "forge.write.completed" → c.1.infra.recordEvent ev = none) :
    Linkable cfg (calls ++ [c]) := by
  intro pre d post hcalls hok
  rcases List.eq_nil_or_concat post with rfl | ⟨post', x, rfl⟩
  · obtain ⟨rfl, hlast⟩ := List.append_inj' hcalls rfl
    obtain rfl : c = d := by simpa using hlast
    exact ⟨hclear, hstore⟩
  · rw [List.concat_eq_append, ← List.cons_append, ← List.append_assoc] at hcalls
    exact h pre d post' (List.append_inj' hcalls rfl).1 hok

theorem order_approved :
    Function.update (Function.update (fun _ => none) "w-1" (some (order .requested))) "w-1"
        (some (order .approved)) =
      Function.update (fun _ => none) "w-1" (some (order .approved)) :=
  Function.update_idem ..

theorem orderRun_linkable : Linkable orderConfig orderRun := by
  have h₀ := linkable_nil orderConfig
  have h₁ := h₀.snoc (c := orderRun[0]) (clear_of_single _ none (by simp [view, handleAll]))
    fun _ _ => rfl
  have h₂ := h₁.snoc (c := orderRun[1]) (clear_of_single _ (some (order .requested)) rfl)
    fun _ _ => rfl
  exact h₂.snoc (c := orderRun[2]) (clear_of_single _ _ order_approved) fun _ _ => rfl

theorem slowOrderRun_linkable : Linkable orderConfig slowOrderRun := by
  have h₀ := linkable_nil orderConfig
  have h₁ := h₀.snoc (c := slowOrderRun[0]) (clear_of_single _ none (by simp [view, handleAll]))
    fun _ _ => rfl
  have h₂ := h₁.snoc (c := slowOrderRun[1]) (clear_of_single _ (some (order .requested)) rfl)
    fun _ _ => rfl
  have h₃ := h₂.snoc (c := slowOrderRun[2]) (clear_of_single _ _ order_approved) fun _ _ => rfl
  exact h₃.snoc (c := slowOrderRun[3]) (clear_of_single _ _ order_approved) fun _ _ => rfl

/-- The hypotheses of `log_determines_writes` hold for the two runs, which apply the order. -/
theorem log_determines_writes_orderRun :
    appliedSet (handleAll orderConfig orderRun { self := {} }).2.trace =
        appliedSet (handleAll orderConfig slowOrderRun { self := {} }).2.trace ∧
      appliedOf (handleAll orderConfig orderRun { self := {} }).2.trace =
        [((.str "cavi-w-1", .str "SalesOrder", .obj [("total", .int 10)]) : Json × Json × Json)] := by
  refine ⟨log_determines_writes orderConfig orderConfig orderRun slowOrderRun rfl rfl ?_ ?_
    orderRun_linkable slowOrderRun_linkable ?_, ?_⟩
  · decide
  · decide
  · decide +kernel
  · decide +kernel

/-- Two proposals of one kind under the given ids, and the approval of `w-1`. -/
def swapRun (id₁ id₂ : String) : List (Env × Event) :=
  [(orderEnv "0" id₁ fun _ => .ok [("id", .int 7)], orderProposal 10),
    (orderEnv "1" id₂ fun _ => .ok [("id", .int 7)], orderProposal 200),
    (orderEnv "2" "w-3" fun _ => .ok [("id", .int 7)], approval "w-1")]

/-- The agent of the two runs, with the SHA-256 of the four entries they add to the log. -/
def swapConfig : Config where
  __ := orderConfig
  rt := .repository "schema_registry/schemas" (fun _ _ => "") fun m =>
    if m.length = 527 then "4c7b715394fe138496fff0a07118384ef0c8127104fdb43ecf9dd0f7652f4306"
    else if m.length = 528 then "6af0b8f0d169774996b4d46bc686d99a8535b80b73cb9e8b24db0f36d2a60a22"
    else if m.length = 381 then "3cc458d8ac2ea14c2e514a72390614742f79148ad22e80b42c647699ac88b2fb"
    else "3e2eca733292be9a912af5b81b2ce8e2b1f28e8c85ab0a55ac50b85187c530c0"

/-- With the ids of two proposals swapped the log is the same, and the other one is applied. -/
theorem swapped_ids_same_log :
    let run₁ := (handleAll swapConfig (swapRun "w-1" "w-2") { self := {} }).2.trace
    let run₂ := (handleAll swapConfig (swapRun "w-2" "w-1") { self := {} }).2.trace
    (newIds (swapRun "w-1" "w-2")).Nodup ∧ (newIds (swapRun "w-2" "w-1")).Nodup ∧
      emittedOf run₁ = emittedOf run₂ ∧ appliedSet run₁ ≠ appliedSet run₂ := by
  intro run₁ run₂
  obtain ⟨hlog, h₁, h₂⟩ : emittedOf run₁ = emittedOf run₂ ∧
      (("cavi-w-1", "SalesOrder", .obj [("total", .int 10)]) : Json × Json × Json) ∈ appliedOf run₁ ∧
      (("cavi-w-1", "SalesOrder", .obj [("total", .int 10)]) : Json × Json × Json) ∉ appliedOf run₂ := by
    decide +kernel
  refine ⟨by decide, by decide, hlog, ?_⟩
  intro h
  have hmem : (("cavi-w-1", "SalesOrder", .obj [("total", .int 10)]) : Json × Json × Json) ∈
      appliedSet run₂ := by
    rw [← h]
    exact h₁
  exact h₂ hmem

end ForgeWriteAgent

end CaviErp

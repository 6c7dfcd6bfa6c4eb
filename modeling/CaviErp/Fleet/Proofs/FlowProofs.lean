import CaviErp.Base.Proofs.RegistryProofs
import CaviErp.Fleet.Flow
import CaviErp.Fleet.Proofs.SpeechProofs
import CaviErp.Lib.Proofs.BusProofs

/-!
# Work, writes and books

What an agent may record bounds what its messages can cause, and who can have sent a message that an agent
works on. Dead letters do not matter here: only the watchers listen to them.
-/

namespace CaviErp

open Py

namespace Fleet

variable {f : Fleet}

open Bus.Network.Config in
theorem start_posted (selves : ∀ a, Self f.backends a) (store : EventStore) (running : AgentName → Bool) :
    (f.start selves store running).Posted := by
  intro a l hl
  cases hl

open Bus.Network.Config in
theorem start_genuine (selves : ∀ a, Self f.backends a) (store : EventStore)
    (running : AgentName → Bool) : ∀ l ∈ (f.start selves store running).sent, Genuine l := by
  intro l hl
  cases hl

/-! ## Reactions -/

theorem speaks (a : AgentName) (env : Env a) (m : Message) :
    Speaks f.rt (heard m.data) ((heard m.data).elim [] (repertoire a)) (f.onMessage a env m) := by
  cases a with
  | forge =>
    exact (Speaks.onMessage env.infra (ForgeAgent.handle_speaks ⟨f.rt, f.uuid5⟩ env) m).mapError _
  | forgeWrite =>
    exact (Speaks.onMessage env.infra (ForgeWriteAgent.handle_speaks ⟨f.rt, f.breaker⟩ env) m).mapError _
  | ledger =>
    exact (Speaks.onMessage env.infra
      (LedgerAgent.handle_speaks f.rt f.backends.ledger env) m).mapError _
  | ledgerQuery => exact (Speaks.onMessage env.infra (LedgerQueryAgent.handle_speaks f.rt env) m).mapError _
  | ledgerReconcile =>
    exact (Speaks.onMessage env.infra (LedgerReconcileAgent.handle_speaks f.rt env) m).mapError _
  | mapper =>
    exact (Speaks.onMessage env.infra (MapperAgent.handle_speaks f.rt env _) m).mapError _
  | erpMapper =>
    exact (Speaks.onMessage env.infra
      (ErpMapperAgent.handle_speaks f.rt f.transformer env) m).mapError _
  | ticker => exact TickerAgent.onMessage_speaks f.rt f.backends.cache f.ttl env m
  | tickerWebhook =>
    exact (Speaks.onMessage env.infra
      (TickerWebhookAgent.handle_speaks f.rt f.ingestor env) m).mapError _
  | vault =>
    exact (Speaks.onMessage env.infra
      (VaultAgent.handle_speaks f.rt f.backends.credentials env) m).mapError _
  | beacon =>
    exact (Speaks.onMessage env.infra
      (BeaconAgent.handle_speaks ⟨f.rt, f.beacon, f.backends.dedup⟩ env) m).mapError _
  | beaconReport =>
    exact (Speaks.onMessage env.infra
      (BeaconReportAgent.handle_speaks ⟨f.rt, f.defaultTargets⟩ env) m).mapError _

/-- What a reaction leaves is what some acts leave that answer the message. -/
theorem react_acts (a : AgentName) (env : Env a) (m : String × String) (s : f.network.State a)
    (store : EventStore) :
    ∃ acts : List Act, (f.network.react a env m s store).shared = acts.foldl (Act.inStore f.rt.sha256) store ∧
      (f.network.react a env m s store).sent = acts.filterMap Act.post? ∧
      Lawful f.rt (heard m.2) ((heard m.2).elim [] (repertoire a)) acts := by
  obtain ⟨acts, hboard, hlawful⟩ :=
    speaks (f := f) a env { data := m.2 } { self := s.1, store := store, trace := s.2 }
  refine ⟨acts, congrArg Board.store hboard, ?_, hlawful⟩
  have hbus := congrArg Board.bus hboard
  exact hbus.trans (List.nil_append _)

/-- What an agent records for a message is of its repertoire. -/
theorem kind_of_lawful {a : AgentName} {text : String} {acts : List Act} {event : Event}
    (h : Lawful f.rt (heard text) ((heard text).elim [] (repertoire a)) acts)
    (hevent : event ∈ acts.filterMap Act.event?) :
    ∃ cause, heard text = some cause ∧ ∃ kind ∈ repertoire a cause, kind event := by
  obtain ⟨kind, hkind, hof⟩ := exists_kind h.kinds hevent
  cases hcause : heard text with
  | none =>
    rw [hcause] at hkind
    cases hkind
  | some cause =>
    rw [hcause] at hkind
    exact ⟨cause, rfl, kind, hkind, hof⟩

/-- What an agent publishes for a message is an event of its repertoire or a dead letter of the message. -/
theorem sent_cases {a : AgentName} {env : Env a} {m : String × String} {s : f.network.State a}
    {store : EventStore} {post : String × String} (h : post ∈ (f.network.react a env m s store).sent) :
    (∃ event, MeetsContract f.rt event ∧
        (∃ cause, heard m.2 = some cause ∧ ∃ kind ∈ repertoire a cause, kind event) ∧
        post = (event.subject.pyStr, dumps .default (.obj event.toDict))) ∨
      ∃ event error, heard m.2 = some event ∧ post = ("deadletter." ++ event.subject.pyStr,
        dumps .default (.obj (BaseAgent.envelope event error))) := by
  obtain ⟨acts, -, hsent, hlawful⟩ := react_acts (f := f) a env m s store
  rw [hsent, List.mem_filterMap] at h
  obtain ⟨act, hact, hpost⟩ := h
  cases act with
  | recorded event => cases hpost
  | quarantined event error => cases hpost
  | deadLettered event error =>
    have hmem : event ∈ acts.filterMap Act.quarantined? := List.mem_filterMap.mpr ⟨_, hact, rfl⟩
    exact .inr ⟨event, error, hlawful.quarantined event hmem, (Option.some.inj hpost).symm⟩
  | emitted event =>
    have hmem : event ∈ acts.filterMap Act.event? := List.mem_filterMap.mpr ⟨_, hact, rfl⟩
    exact .inl ⟨event, hlawful.contracted event hmem, kind_of_lawful hlawful hmem,
      (Option.some.inj hpost).symm⟩

/-! ## Work -/

theorem mem_workingSubjects {a : AgentName} (ha : ¬ isWatcher a = true) {channel : String}
    (h : channel ∈ subjects a) : channel ∈ workingSubjects := by
  refine List.mem_flatMap.mpr ⟨a, List.mem_filter.mpr ⟨?_, by simpa using ha⟩, h⟩
  cases a <;> decide

theorem fee_eq_zero {channel : String} (h : channel ∉ workingSubjects) : fee channel = 0 := by
  have htwo : ¬ (channel = "forge.workorder" ∨ channel = "mapper.transform") := by
    rintro (rfl | rfl)
    · exact h (by decide)
    · exact h (by decide)
  rw [fee, if_neg htwo, if_neg (by simpa using h)]

theorem fee_le_two (channel : String) : fee channel ≤ 2 := by
  unfold fee
  split
  · omega
  · split <;> omega

/-- No agent works on dead letters. -/
theorem deadletter_not_worked (subject : String) : "deadletter." ++ subject ∉ workingSubjects := by
  intro h
  have hall : workingSubjects.all (fun s => !"deadletter.".toList.isPrefixOf s.toList) = true := by
    decide
  have hnot := List.all_eq_true.mp hall _ h
  rw [Bool.not_eq_true', ← Bool.not_eq_true, List.isPrefixOf_iff_prefix, String.toList_append] at hnot
  exact hnot (List.prefix_append _ _)

theorem fee_deadletter (subject : String) : fee ("deadletter." ++ subject) = 0 :=
  fee_eq_zero (deadletter_not_worked subject)

/-- What an agent is paid for a message: for the delivery, and for one of what it makes of it. -/
def price (a : AgentName) : Nat :=
  if isWatcher a then 0 else if a = .forge ∨ a = .mapper then 2 else 1

open Bus.Network.Config in
/-- The agents that hear a message are paid its fee. -/
theorem worth_eq_fee (m : String × String) :
    worth (N := f.network) (fun a _ => price a) m = fee m.1 := by
  obtain ⟨channel, text⟩ := m
  show (∑ a, if (subjects a).contains channel then price a else 0) = fee channel
  by_cases h : channel ∈ workingSubjects
  · have hall : ∀ c ∈ workingSubjects,
        (∑ a, if (subjects a).contains c then price a else 0) = fee c := by
      decide +kernel
    exact hall channel h
  · rw [fee_eq_zero h]
    refine Finset.sum_eq_zero fun a _ => ?_
    by_cases hw : isWatcher a = true
    · simp [price, hw]
    · have hmem : channel ∉ subjects a := fun hs => h (mem_workingSubjects hw hs)
      simp [hmem]

/-- The most that an event about one of the subjects costs. -/
def topicFee (subjects : List String) : Nat := (subjects.map fee).foldr max 0

theorem fee_le_topicFee {cause event : Event} {subjects : List String} (h : Answers cause subjects event) :
    fee event.subject.pyStr ≤ topicFee subjects := by
  obtain ⟨⟨s, hs, heq⟩, -⟩ := h
  rw [heq]
  show fee s ≤ topicFee subjects
  unfold topicFee
  induction subjects with
  | nil => cases hs
  | cons t subjects ih =>
    rcases List.mem_cons.mp hs with rfl | hs
    · exact Nat.le_max_left _ _
    · exact (ih hs).trans (Nat.le_max_right _ _)

/-- The most that the events cost which an agent records for one message. -/
def bounds (a : AgentName) : List Nat := if a = .mapper then [1] else (topics a).map topicFee

/-- A subject without a contract is not that of an event which meets one. -/
theorem subject_ne_of_contract {dir : String} {complaint : Schema → Json → String}
    {sha256 : String → String} {event : Event}
    (h : MeetsContract (.repository dir complaint sha256) event) {s : String}
    (hs : contractsNamed (s ++ ".v") = []) : event.subject.pyStr ≠ s := by
  intro heq
  obtain ⟨schema, hfile, -⟩ := (SchemaRegistry.validate_ok_iff _).mp h
  have hkey : schemaFiles.lookup (s ++ ".v" ++ event.schemaVersion.pyStr) = some schema := by
    rw [← heq]
    exact hfile
  have hmem := mem_contractsNamed hkey
  rw [hs] at hmem
  cases hmem

/-- No trigger that makes further work has a contract. -/
theorem fee_of_contract {dir : String} {complaint : Schema → Json → String} {sha256 : String → String}
    {event : Event} (h : MeetsContract (.repository dir complaint sha256) event) :
    fee event.subject.pyStr ≤ 1 := by
  have horder : event.subject.pyStr ≠ "forge.workorder" := subject_ne_of_contract h (by decide)
  have htransform : event.subject.pyStr ≠ "mapper.transform" := subject_ne_of_contract h (by decide)
  rw [fee, if_neg (by rintro (h | h); exacts [horder h, htransform h])]
  split <;> omega

/-- What a reaction publishes costs no more than what it recorded. -/
theorem sum_fee_posts (acts : List Act) :
    ((acts.filterMap Act.post?).map fun m => fee m.1).sum ≤
      ((acts.filterMap Act.event?).map fun e => fee e.subject.pyStr).sum := by
  induction acts with
  | nil => exact Nat.zero_le _
  | cons act acts ih =>
    cases act with
    | recorded event =>
      simp only [List.filterMap_cons, Act.post?, Act.event?, List.map_cons, List.sum_cons]
      omega
    | emitted event =>
      simp only [List.filterMap_cons, Act.post?, Act.event?, List.map_cons, List.sum_cons]
      omega
    | quarantined event error =>
      simpa only [List.filterMap_cons, Act.post?, Act.event?] using ih
    | deadLettered event error =>
      simp only [List.filterMap_cons, Act.post?, Act.event?, List.map_cons, List.sum_cons,
        fee_deadletter]
      omega

theorem work_eq_sum (history : List f.network.Activation) :
    work history = (history.map fun x => if isWatcher x.who then 0 else 1).sum := by
  unfold work
  induction history with
  | nil => rfl
  | cons x history ih =>
    by_cases hx : isWatcher x.who = true
    · simp [hx, ih]
    · simp [hx, ih, Nat.add_comm]

open Bus.Network.Config in
theorem sum_income (steps : List f.network.Step) :
    (steps.map (income fun a _ => price a)).sum = ((fromOutside steps).map fun m => fee m.1).sum := by
  induction steps with
  | nil => rfl
  | cons s steps ih =>
    rw [List.map_cons, List.sum_cons, ih, fromOutside, fromOutside]
    cases s with
    | inject m =>
      simp only [List.filterMap_cons, List.map_cons, List.sum_cons]
      exact congrArg (· + _) (worth_eq_fee m)
    | deliver a k env => simp [income]
    | lose a k => simp [income]
    | stop a => simp [income]
    | start a => simp [income]

section Repository

variable (f) (dir : String) (complaint : Schema → Json → String)

/-- An agent is paid for its delivery and for what it makes of the message. -/
theorem react_paid (a : AgentName) (env : Env a) (m : String × String)
    (s : (f.overRepository dir complaint).network.State a) (store : EventStore) :
    (if isWatcher a then 0 else 1) +
      ((((f.overRepository dir complaint).network.react a env m s store).sent).map
        fun m => fee m.1).sum ≤ price a := by
  obtain ⟨acts, -, hsent, hlawful⟩ := react_acts (f := f.overRepository dir complaint) a env m s store
  rw [hsent]
  have hposts := sum_fee_posts acts
  have hevents : ((acts.filterMap Act.event?).map fun e => fee e.subject.pyStr).sum ≤
      (bounds a).sum := by
    have hkinds := hlawful.kinds
    cases hcause : heard m.2 with
    | none =>
      rw [hcause] at hkinds
      have hnone : ((acts.filterMap Act.event?).map fun e => fee e.subject.pyStr).sum ≤
          ([] : List Nat).sum := sum_le_of_kinds hlawful.contracted .nil hkinds
      exact hnone.trans (Nat.zero_le _)
    | some cause =>
      rw [hcause] at hkinds
      refine sum_le_of_kinds hlawful.contracted ?_ hkinds
      unfold bounds
      show List.Forall₂ _ (repertoire a cause) _
      unfold repertoire
      split
      · exact .cons (fun e he _ => fee_of_contract he) .nil
      · rw [List.forall₂_map_left_iff, List.forall₂_map_right_iff, List.forall₂_same]
        exact fun _ _ e _ hanswers => fee_le_topicFee hanswers
  have hprice : (if isWatcher a then 0 else 1) + (bounds a).sum ≤ price a := by
    cases a <;> decide
  exact (Nat.add_le_add_left (hposts.trans hevents) _).trans hprice

open Bus.Network.Config in
/-- However the messages are delivered, lost or delayed, and whatever fails: the deliveries to agents that
are no watchers are paid for by the messages from outside, with at most two for each. -/
theorem work_le_fees (selves : ∀ a, Self f.backends a) (store : EventStore) (running : AgentName → Bool)
    (steps : List (f.overRepository dir complaint).network.Step) :
    work (((f.overRepository dir complaint).start selves store running).history steps) ≤
        ((fromOutside steps).map fun m => fee m.1).sum ∧
      ((fromOutside steps).map fun m => fee m.1).sum ≤ 2 * (fromOutside steps).length := by
  refine ⟨?_, ?_⟩
  · have hreact : ∀ a env m s store, (f.overRepository dir complaint).network.hears a m = true →
        (if isWatcher a then 0 else 1) +
          ((((f.overRepository dir complaint).network.react a env m s store).sent).map
            (worth fun a _ => price a)).sum ≤ price a := by
      intro a env m s store _
      rw [show worth (N := (f.overRepository dir complaint).network) (fun a _ => price a) =
        fun m => fee m.1 from funext fun m => worth_eq_fee m]
      exact react_paid f dir complaint a env m s store
    have hle := work_le (fun a _ => price a) hreact
      (start_posted (f := f.overRepository dir complaint) selves store running) steps
    have hnothing : pending (fun a _ => price a)
        ((f.overRepository dir complaint).start selves store running) = 0 :=
      Finset.sum_eq_zero fun a _ => rfl
    rw [sum_income, hnothing] at hle
    rw [work_eq_sum]
    omega
  · induction fromOutside steps with
    | nil => exact Nat.zero_le _
    | cons m rest ih =>
      have hm := fee_le_two m.1
      simp only [List.map_cons, List.sum_cons, List.length_cons]
      omega

end Repository

/-! ## Who sends what an agent works on -/

section Senders

variable {selves : ∀ a, Self f.backends a} {store : EventStore} {running : AgentName → Bool}
  {steps : List f.network.Step} {x : f.network.Activation}

open Bus.Network.Config in
/-- A message that an agent works on comes from outside or from the mapper, or is an entry for the ledger
from the forge. -/
theorem sender_of_worked (hx : x ∈ (f.start selves store running).history steps)
    (hworker : ¬ isWatcher x.who = true) :
    x.letter.origin = none ∨ x.letter.origin = some .mapper ∨
      (x.letter.origin = some .forge ∧ x.who = .ledger) := by
  obtain ⟨hhears, hgenuine⟩ := letter_of_history (start_posted selves store running) (start_genuine selves store running) hx
  have hchannel : x.letter.body.1 ∈ subjects x.who := List.contains_iff_mem.mp hhears
  cases horigin : x.letter.origin with
  | none => exact .inl rfl
  | some a =>
    by_cases ha : a = .mapper
    · exact .inr (.inl (by rw [ha]))
    obtain ⟨env, m, s, store, hsent⟩ := hgenuine a horigin
    rcases sent_cases hsent with ⟨event, -, ⟨cause, -, kind, hkind, hevent⟩, hpost⟩ | ⟨event, error, -, hpost⟩
    · rw [repertoire, if_neg ha] at hkind
      obtain ⟨topic, htopic, rfl⟩ := List.mem_map.mp hkind
      obtain ⟨s, hs, hsubject⟩ := hevent.subject
      rw [hpost, hsubject] at hchannel
      have hone : ∀ a w : AgentName, ¬ isWatcher w = true → ∀ topic ∈ topics a, ∀ s ∈ topic,
          s ∈ subjects w → a = .forge ∧ w = .ledger := by
        decide +kernel
      obtain ⟨rfl, hledger⟩ := hone a x.who hworker topic htopic s hs hchannel
      exact .inr (.inr ⟨rfl, hledger⟩)
    · rw [hpost] at hchannel
      exact absurd (mem_workingSubjects hworker hchannel) (deadletter_not_worked _)

end Senders

end Fleet

end CaviErp

import Mathlib
import CaviErp.Lib.Bus

/-!
# Runs of a network

Where the letters of a run come from, what becomes of the common store, and what the letters of the outside
can cause.
-/

namespace Bus

namespace Network

variable {ι : Type} {N : Network ι}

namespace Config

variable [DecidableEq ι]

/-! ## Where letters come from -/

/-- Every letter in an inbox was sent, and its owner hears it. -/
def Posted (c : N.Config) : Prop :=
  ∀ i, ∀ l ∈ c.inbox i, l ∈ c.sent ∧ N.hears i l.body = true

omit [DecidableEq ι] in
theorem Posted.broadcast {c : N.Config} (h : c.Posted) (letters : List (Letter ι N.Msg)) :
    (c.broadcast letters).Posted := by
  intro i l hl
  rcases mem_inbox_broadcast hl with hl | ⟨hl, hhears⟩
  · obtain ⟨hsent, hhears⟩ := h i l hl
    exact ⟨List.mem_append_left _ hsent, hhears⟩
  · exact ⟨List.mem_append_right _ hl, hhears⟩

theorem Posted.step {c : N.Config} (h : c.Posted) (s : N.Step) : (c.step s).Posted := by
  cases hx : c.activation s with
  | none =>
    obtain ⟨-, ⟨m, -, hstep⟩ | ⟨hsent, hinbox⟩⟩ := step_of_inactive hx
    · rw [hstep]
      exact h.broadcast _
    · intro i l hl
      rw [hsent]
      exact h i l ((hinbox i).subset hl)
  | some x =>
    obtain ⟨k, -, hstep⟩ := step_of_active hx
    rw [hstep]
    refine Posted.broadcast (fun i l hl => ?_) _
    exact h i l ((settle_inbox_sublist c k x i).subset hl)

/-- Whatever is sent in a run was injected, or is sent by a reaction. -/
theorem sent_cases {steps : List N.Step} {c : N.Config} {l : Letter ι N.Msg}
    (h : l ∈ (c.run steps).sent) :
    l ∈ c.sent ∨ (∃ m, .inject m ∈ steps ∧ l = ⟨none, m⟩) ∨ ∃ x ∈ c.history steps, l ∈ x.letters := by
  induction steps generalizing c with
  | nil => exact .inl h
  | cons s steps ih =>
    rw [run_cons] at h
    rcases ih h with hl | ⟨m, hm, hl⟩ | ⟨x, hx, hl⟩
    · cases hs : c.activation s with
      | none =>
        obtain ⟨-, ⟨m, rfl, hstep⟩ | ⟨hsent, -⟩⟩ := step_of_inactive hs
        · rw [hstep, broadcast, List.mem_append, List.mem_singleton] at hl
          rcases hl with hl | hl
          · exact .inl hl
          · exact .inr (.inl ⟨m, List.mem_cons_self, hl⟩)
        · rw [hsent] at hl
          exact .inl hl
      | some x =>
        obtain ⟨k, -, hstep⟩ := step_of_active hs
        rw [hstep, broadcast, List.mem_append] at hl
        rcases hl with hl | hl
        · exact .inl hl
        · refine .inr (.inr ⟨x, ?_, hl⟩)
          rw [history_cons, hs]
          exact List.mem_cons_self
    · exact .inr (.inl ⟨m, List.mem_cons_of_mem _ hm, hl⟩)
    · refine .inr (.inr ⟨x, ?_, hl⟩)
      rw [history_cons]
      exact List.mem_append_right _ hx

/-- What was sent, stays sent. -/
theorem sent_grows (c : N.Config) (steps : List N.Step) : c.sent <+: (c.run steps).sent := by
  induction steps generalizing c with
  | nil => exact List.prefix_refl _
  | cons s steps ih =>
    refine List.IsPrefix.trans ?_ (ih _)
    cases hs : c.activation s with
    | none =>
      obtain ⟨-, ⟨m, -, hstep⟩ | ⟨hsent, -⟩⟩ := step_of_inactive hs
      · rw [hstep]
        exact List.prefix_append _ _
      · rw [hsent]
    | some x =>
      obtain ⟨k, -, hstep⟩ := step_of_active hs
      rw [hstep]
      exact List.prefix_append _ _

/-- The letters of a reaction are sent. -/
theorem sent_of_history {c : N.Config} {steps : List N.Step} {x : N.Activation} (hx : x ∈ c.history steps)
    {l : Letter ι N.Msg} (hl : l ∈ x.letters) : l ∈ (c.run steps).sent := by
  induction steps generalizing c with
  | nil => cases hx
  | cons s steps ih =>
    rw [history_cons, List.mem_append, Option.mem_toList] at hx
    rcases hx with hx | hx
    · obtain ⟨k, -, hstep⟩ := step_of_active hx
      refine (sent_grows (c.step s) steps).subset ?_
      rw [hstep]
      exact List.mem_append_right _ hl
    · exact ih hx

/-- A letter of a process is one that the process would send in some state. -/
def Genuine (l : Letter ι N.Msg) : Prop :=
  ∀ i, l.origin = some i → ∃ input m state shared, l.body ∈ (N.react i input m state shared).sent

omit [DecidableEq ι] in
theorem genuine_letters (x : N.Activation) : ∀ l ∈ x.letters, Genuine l := by
  intro l hl i hi
  obtain ⟨m, hm, rfl⟩ := List.mem_map.mp hl
  obtain rfl : x.who = i := Option.some.inj hi
  exact ⟨x.input, x.letter.body, _, _, hm⟩

theorem genuine_step {c : N.Config} (h : ∀ l ∈ c.sent, Genuine l) (s : N.Step) :
    ∀ l ∈ (c.step s).sent, Genuine l := by
  intro l hl
  have hl' : l ∈ (c.run [s]).sent := hl
  rcases sent_cases hl' with hl | ⟨m, -, rfl⟩ | ⟨x, -, hl⟩
  · exact h l hl
  · intro i hi
    cases hi
  · exact genuine_letters x l hl

/-- The letter that activates a process is heard by it, and genuine. -/
theorem letter_of_history {c : N.Config} (hposted : c.Posted) (hgenuine : ∀ l ∈ c.sent, Genuine l)
    {steps : List N.Step} {x : N.Activation} (hx : x ∈ c.history steps) :
    N.hears x.who x.letter.body = true ∧ Genuine x.letter := by
  obtain ⟨⟨hposted, hgenuine⟩, -, hmem⟩ :=
    history_induct (I := fun c => c.Posted ∧ ∀ l ∈ c.sent, Genuine l)
      (fun c s h => ⟨h.1.step s, genuine_step h.2 s⟩) steps c ⟨hposted, hgenuine⟩ x hx
  obtain ⟨hsent, hhears⟩ := hposted x.who x.letter hmem
  exact ⟨hhears, hgenuine x.letter hsent⟩

/-- What a process has sent is what its reactions sent, in order. -/
theorem sent_of_process (c : N.Config) (steps : List N.Step) (i : ι) :
    ((c.run steps).sent.filter fun l => l.origin = some i) =
      (c.sent.filter fun l => l.origin = some i) ++
        ((c.history steps).filter fun x => x.who = i).flatMap Activation.letters := by
  induction steps generalizing c with
  | nil => simp
  | cons s steps ih =>
    rw [run_cons, ih, history_cons, List.filter_append, List.flatMap_append, ← List.append_assoc]
    congr 1
    cases hs : c.activation s with
    | none =>
      obtain ⟨-, ⟨m, -, hstep⟩ | ⟨hsent, -⟩⟩ := step_of_inactive hs
      · rw [hstep]
        simp [broadcast]
      · rw [hsent]
        simp
    | some x =>
      obtain ⟨k, -, hstep⟩ := step_of_active hs
      have hsent : (c.step s).sent = c.sent ++ x.letters := by
        rw [hstep]
        rfl
      rw [hsent, List.filter_append]
      congr 1
      by_cases hi : x.who = i
      · have hall : ∀ l ∈ x.letters, l.origin = some i := by
          intro l hl
          obtain ⟨m, -, rfl⟩ := List.mem_map.mp hl
          exact congrArg some hi
        simpa [hi] using hall
      · have hnone : ∀ l ∈ x.letters, l.origin ≠ some i := by
          intro l hl
          obtain ⟨m, -, rfl⟩ := List.mem_map.mp hl
          exact fun h => hi (Option.some.inj h)
        simpa [hi] using hnone

/-! ## Descent -/

section Descent

variable {R : N.Msg → N.Msg → Prop} {roots : N.Msg → Prop}

/-- Every letter sent descends from a root. -/
def Rooted (R : N.Msg → N.Msg → Prop) (roots : N.Msg → Prop) (c : N.Config) : Prop :=
  ∀ l ∈ c.sent, ∃ m, roots m ∧ R m l.body

variable (hrefl : ∀ m, R m m) (htrans : ∀ {m₁ m₂ m₃}, R m₁ m₂ → R m₂ m₃ → R m₁ m₃)
  (hreact : ∀ i input m state shared, ∀ m' ∈ (N.react i input m state shared).sent, R m m')

omit [DecidableEq ι] in
/-- The letter of a reaction descends from a root. -/
theorem rooted_letter {c : N.Config} (hposted : c.Posted) (hrooted : c.Rooted R roots) {s : N.Step}
    {x : N.Activation} (hx : c.activation s = some x) : ∃ m, roots m ∧ R m x.letter.body := by
  obtain ⟨k, -, -, hl, -⟩ := activation_eq_some hx
  exact hrooted x.letter (hposted x.who x.letter (List.mem_of_getElem? hl)).1

include hrefl htrans hreact

theorem rooted_step {c : N.Config} (hposted : c.Posted) (hrooted : c.Rooted R roots) {s : N.Step}
    (hroots : ∀ m, s = .inject m → roots m) : (c.step s).Rooted R roots := by
  intro l hl
  have hl' : l ∈ (c.run [s]).sent := hl
  rcases sent_cases hl' with hl | ⟨m, hm, rfl⟩ | ⟨x, hx, hl⟩
  · exact hrooted l hl
  · exact ⟨m, hroots m (List.mem_singleton.mp hm).symm, hrefl m⟩
  · have hactive : c.activation s = some x := by
      simpa [history_cons] using hx
    obtain ⟨root, hroot, hletter⟩ := rooted_letter hposted hrooted hactive
    obtain ⟨m, hm, rfl⟩ := List.mem_map.mp hl
    exact ⟨root, hroot, htrans hletter (hreact _ _ _ _ _ m hm)⟩

/-- What reactions to descendants of the roots keep of the store, a run keeps. -/
theorem rooted_run {I : N.Shared → Prop}
    (hshared : ∀ i input m state shared, (∃ root, roots root ∧ R root m) → I shared →
      I (N.react i input m state shared).shared)
    {c : N.Config} (hposted : c.Posted) (hrooted : c.Rooted R roots) (hI : I c.shared) {steps : List N.Step}
    (hroots : ∀ m, .inject m ∈ steps → roots m) :
    (c.run steps).Rooted R roots ∧ I (c.run steps).shared := by
  induction steps generalizing c with
  | nil => exact ⟨hrooted, hI⟩
  | cons s steps ih =>
    have hfirst : ∀ m, s = .inject m → roots m := fun m hm => hroots m (hm ▸ List.mem_cons_self)
    refine ih (hposted.step s) (rooted_step hrefl htrans hreact hposted hrooted hfirst) ?_
      fun m hm => hroots m (List.mem_cons_of_mem _ hm)
    cases hs : c.activation s with
    | none =>
      rw [(step_of_inactive hs).1]
      exact hI
    | some x =>
      obtain ⟨-, -, -, -, hbefore⟩ := activation_eq_some hs
      obtain ⟨k, -, hstep⟩ := step_of_active hs
      rw [← hbefore] at hI
      have hreaction := hshared x.who x.input x.letter.body (x.before.state x.who) x.before.shared
        (rooted_letter hposted hrooted hs) hI
      rw [hstep]
      exact hreaction

end Descent

/-! ## The common store -/

section Shared

variable {R : N.Shared → N.Shared → Prop} (hrefl : ∀ s, R s s)
  (htrans : ∀ {s₁ s₂ s₃}, R s₁ s₂ → R s₂ s₃ → R s₁ s₃)
  (hreact : ∀ i input m state shared, R shared (N.react i input m state shared).shared)

include hrefl hreact

theorem shared_step (c : N.Config) (s : N.Step) : R c.shared (c.step s).shared := by
  cases hs : c.activation s with
  | none =>
    rw [(step_of_inactive hs).1]
    exact hrefl _
  | some x =>
    obtain ⟨-, -, -, -, hbefore⟩ := activation_eq_some hs
    obtain ⟨k, -, hstep⟩ := step_of_active hs
    have hreaction := hreact x.who x.input x.letter.body (x.before.state x.who) x.before.shared
    rw [hstep, ← hbefore]
    exact hreaction

include htrans

/-- What each reaction does to the store, a run does. -/
theorem shared_run (c : N.Config) (steps : List N.Step) : R c.shared (c.run steps).shared := by
  induction steps generalizing c with
  | nil => exact hrefl _
  | cons s steps ih => exact htrans (shared_step hrefl hreact c s) (ih _)

/-- From a reaction on, a run does to the store what each reaction does. -/
theorem shared_of_history {c : N.Config} {steps : List N.Step} {x : N.Activation}
    (hx : x ∈ c.history steps) : R x.reaction.shared (c.run steps).shared := by
  induction steps generalizing c with
  | nil => cases hx
  | cons s steps ih =>
    rw [history_cons, List.mem_append, Option.mem_toList] at hx
    rcases hx with hx | hx
    · obtain ⟨k, -, hstep⟩ := step_of_active hx
      have hshared : (c.step s).shared = x.reaction.shared := by
        rw [hstep]
        rfl
      rw [← hshared]
      exact shared_run hrefl htrans hreact _ steps
    · exact ih hx

end Shared

/-! ## What is observed of a process -/

section Observed

variable {O : Type} (obs : ∀ i, N.State i → List O)

omit [DecidableEq ι] in
/-- What a reaction adds to what is observed of its process. -/
def news (x : N.Activation) : List O :=
  (obs x.who x.reaction.state).drop (obs x.who (x.before.state x.who)).length

variable (hreboot : ∀ i s, obs i (N.reboot i s) = obs i s)

include hreboot

theorem obs_of_inactive {c : N.Config} {s : N.Step} (h : c.activation s = none) (i : ι) :
    obs i ((c.step s).state i) = obs i (c.state i) := by
  cases s with
  | inject m => rfl
  | deliver j k input => rw [step_deliver_of_none h]
  | lose j k => rfl
  | stop j => rfl
  | start j =>
    by_cases hi : i = j
    · subst hi
      simp [step, hreboot]
    · simp [step, hi]

/-- If reactions only add to it, what is observed of a process is what its reactions in the run added. -/
theorem observed (hreact : ∀ i input m state shared, obs i state <+: obs i (N.react i input m state shared).state)
    (c : N.Config) (steps : List N.Step) (i : ι) :
    obs i ((c.run steps).state i) =
      obs i (c.state i) ++ ((c.history steps).filter fun x => x.who = i).flatMap (news obs) := by
  induction steps generalizing c with
  | nil => simp
  | cons s steps ih =>
    rw [run_cons, ih, history_cons, List.filter_append, List.flatMap_append, ← List.append_assoc]
    congr 1
    cases hs : c.activation s with
    | none =>
      rw [obs_of_inactive obs hreboot hs]
      simp
    | some x =>
      obtain ⟨-, -, -, -, hbefore⟩ := activation_eq_some hs
      obtain ⟨k, -, hstep⟩ := step_of_active hs
      have hstate : (c.step s).state i = Function.update c.state x.who x.reaction.state i := by
        rw [hstep]
        rfl
      rw [hstate]
      by_cases hi : i = x.who
      · subst hi
        have hgrows := hreact x.who x.input x.letter.body (x.before.state x.who) x.before.shared
        rw [hbefore] at hgrows
        have hnews : obs x.who (c.state x.who) ++ news obs x = obs x.who x.reaction.state := by
          unfold news
          rw [hbefore]
          exact List.prefix_iff_eq_append.mp (by rw [Activation.reaction, hbefore]; exact hgrows)
        simp [hnews]
      · simp [hi, Ne.symm hi]

end Observed

/-! ## The state of one process -/

section Replay

variable {E : Type} {i : ι} {K : N.State i → List E → Prop} (gain : N.Msg → List E)

/-- If the states of a process are those that histories of what its letters give lead to, and a restart
keeps them, its state is that of what all letters it has read give. -/
theorem replayed
    (hreact : ∀ input m state shared h, K state h → K (N.react i input m state shared).state (h ++ gain m))
    (hreboot : ∀ state h, K state h → K (N.reboot i state) h) {c : N.Config} {h : List E}
    (hc : K (c.state i) h) (steps : List N.Step) :
    K ((c.run steps).state i)
      (h ++ ((c.history steps).filter fun x => x.who = i).flatMap fun x => gain x.letter.body) := by
  induction steps generalizing c h with
  | nil => simpa using hc
  | cons s steps ih =>
    rw [run_cons, history_cons, List.filter_append, List.flatMap_append, ← List.append_assoc]
    refine ih ?_
    cases hs : c.activation s with
    | none =>
      have hstate : (c.step s).state i = c.state i ∨ (c.step s).state i = N.reboot i (c.state i) := by
        cases s with
        | inject m => exact .inl rfl
        | deliver j k input => exact .inl (by rw [step_deliver_of_none hs])
        | lose j k => exact .inl rfl
        | stop j => exact .inl rfl
        | start j =>
          by_cases hi : i = j
          · subst hi
            exact .inr (by simp [step])
          · exact .inl (by simp [step, hi])
      simp only [Option.toList_none, List.filter_nil, List.flatMap_nil, List.append_nil]
      rcases hstate with hstate | hstate
      · rw [hstate]
        exact hc
      · rw [hstate]
        exact hreboot _ _ hc
    | some x =>
      obtain ⟨-, -, -, -, hbefore⟩ := activation_eq_some hs
      obtain ⟨k, -, hstep⟩ := step_of_active hs
      have hstate : (c.step s).state i = Function.update c.state x.who x.reaction.state i := by
        rw [hstep]
        rfl
      rw [hstate]
      by_cases hi : i = x.who
      · subst hi
        rw [← hbefore] at hc
        have hnext := hreact x.input x.letter.body _ x.before.shared h hc
        simpa [Activation.reaction] using hnext
      · simpa [hi, Ne.symm hi] using hc

end Replay

/-! ## What a message costs

`weight i m` bounds the work that the processes do because `i` reads `m`, its own included; a message is
worth what its readers make of it. If no reaction sends messages that are worth more than what is left of
its weight, the messages of the outside pay for all the work of a run. -/

section Budget

variable [Fintype ι] (weight : ι → N.Msg → Nat)

/-- What reading the message costs everyone who hears it. -/
def worth (m : N.Msg) : Nat := ∑ i, if N.hears i m then weight i m else 0

/-- What is still to be paid for in the inboxes. -/
def pending (c : N.Config) : Nat := ∑ i, ((c.inbox i).map fun l => weight i l.body).sum

/-- What a step adds from outside. -/
def income : N.Step → Nat
  | .inject m => worth weight m
  | _ => 0

omit [DecidableEq ι] in
theorem sum_worth (letters : List (Letter ι N.Msg)) :
    (letters.map fun l => worth weight l.body).sum =
      ∑ i, (letters.map fun l => if N.hears i l.body then weight i l.body else 0).sum := by
  induction letters with
  | nil => simp
  | cons l letters ih =>
    simp only [List.map_cons, List.sum_cons, Finset.sum_add_distrib, ih]
    rfl

omit [DecidableEq ι] [Fintype ι] in
theorem sum_heard (letters : List (Letter ι N.Msg)) (i : ι) :
    ((letters.filter fun l => N.hears i l.body).map fun l => weight i l.body).sum =
      (letters.map fun l => if N.hears i l.body then weight i l.body else 0).sum := by
  induction letters with
  | nil => rfl
  | cons l letters ih =>
    by_cases hl : N.hears i l.body = true
    · simp [hl, ih]
    · simp [hl, ih]

omit [DecidableEq ι] in
theorem pending_broadcast (c : N.Config) (letters : List (Letter ι N.Msg)) :
    pending weight (c.broadcast letters) ≤
      pending weight c + (letters.map fun l => worth weight l.body).sum := by
  rw [sum_worth, pending, pending, ← Finset.sum_add_distrib]
  refine Finset.sum_le_sum fun i _ => ?_
  by_cases hrun : c.running i = true
  · simp [broadcast, hrun, sum_heard]
  · simp [broadcast, hrun]

omit [DecidableEq ι] in
theorem pending_mono {c c' : N.Config} (h : ∀ i, (c'.inbox i).Sublist (c.inbox i)) :
    pending weight c' ≤ pending weight c := by
  refine Finset.sum_le_sum fun i _ => ?_
  exact ((h i).map fun l => weight i l.body).sum_le_sum fun _ _ => Nat.zero_le _

/-- The letter that was read is paid for. -/
theorem pending_settle {c : N.Config} {k : Nat} {x : N.Activation}
    (hk : (c.inbox x.who)[k]? = some x.letter) :
    pending weight (c.settle k x) + weight x.who x.letter.body ≤ pending weight c := by
  have hread : (((c.inbox x.who).eraseIdx k).map fun l => weight x.who l.body).sum +
      weight x.who x.letter.body = ((c.inbox x.who).map fun l => weight x.who l.body).sum := by
    obtain ⟨hlt, hget⟩ := List.getElem?_eq_some_iff.mp hk
    have hperm := (List.getElem_cons_eraseIdx_perm hlt).map fun l => weight x.who l.body
    rw [hget] at hperm
    rw [← hperm.sum_eq, List.map_cons, List.sum_cons, Nat.add_comm]
  have hsplit : ∀ f : ι → Nat, ∑ i, f i = (∑ i ∈ Finset.univ.erase x.who, f i) + f x.who := by
    intro f
    exact (Finset.sum_erase_add _ _ (Finset.mem_univ _)).symm
  have hothers : ∑ i ∈ Finset.univ.erase x.who, (((c.settle k x).inbox i).map fun l => weight i l.body).sum =
      ∑ i ∈ Finset.univ.erase x.who, ((c.inbox i).map fun l => weight i l.body).sum := by
    refine Finset.sum_congr rfl fun i hi => ?_
    simp [settle, Finset.ne_of_mem_erase hi]
  have hself : (((c.settle k x).inbox x.who).map fun l => weight x.who l.body).sum ≤
      (((c.inbox x.who).eraseIdx k).map fun l => weight x.who l.body).sum := by
    simp only [settle, Function.update_self]
    split
    · exact le_refl _
    · simp
  have hbefore := hsplit fun i => ((c.inbox i).map fun l => weight i l.body).sum
  have hafter := hsplit fun i => (((c.settle k x).inbox i).map fun l => weight i l.body).sum
  rw [pending, pending, hbefore, hafter, hothers]
  omega

/-- The work of a run, and what is left to do, is paid for by what was pending and what came from
outside. -/
theorem work_le {charge : ι → Nat}
    (hreact : ∀ i input m state shared, N.hears i m = true →
      charge i + ((N.react i input m state shared).sent.map (worth weight)).sum ≤ weight i m)
    {c : N.Config} (hposted : c.Posted) (steps : List N.Step) :
    ((c.history steps).map fun x => charge x.who).sum + pending weight (c.run steps) ≤
      pending weight c + (steps.map (income weight)).sum := by
  induction steps generalizing c with
  | nil => simp
  | cons s steps ih =>
    have hrest := ih (hposted.step s)
    rw [history_cons, run_cons, List.map_append, List.sum_append, List.map_cons, List.sum_cons]
    cases hs : c.activation s with
    | none =>
      have hstep : pending weight (c.step s) ≤ pending weight c + income weight s := by
        obtain ⟨-, ⟨m, rfl, hstep⟩ | ⟨-, hinbox⟩⟩ := step_of_inactive hs
        · rw [hstep]
          simpa [income] using pending_broadcast weight c [⟨none, m⟩]
        · exact (pending_mono weight hinbox).trans (Nat.le_add_right _ _)
      simp only [Option.toList_none, List.map_nil, List.sum_nil]
      omega
    | some x =>
      obtain ⟨k, rfl, hrun, hk, hbefore⟩ := activation_eq_some hs
      obtain ⟨k', hk', hstep⟩ := step_of_active hs
      obtain rfl : k = k' := by
        cases hk'
        rfl
      have hhears : N.hears x.who x.letter.body = true :=
        (hposted x.who x.letter (List.mem_of_getElem? hk)).2
      have hpaid := pending_settle weight hk
      have hsent := pending_broadcast weight (c.settle k x) x.letters
      have hcost := hreact x.who x.input x.letter.body (x.before.state x.who) x.before.shared hhears
      have hletters : (x.letters.map fun l => worth weight l.body).sum =
          ((N.react x.who x.input x.letter.body (x.before.state x.who) x.before.shared).sent.map
            (worth weight)).sum := by
        rw [Activation.letters, List.map_map]
        rfl
      rw [hstep] at hrest ⊢
      simp only [Option.toList_some, List.map_cons, List.map_nil, List.sum_cons, List.sum_nil, income]
      omega

end Budget

end Config

end Network

end Bus

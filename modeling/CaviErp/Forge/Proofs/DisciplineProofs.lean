import CaviErp.Forge.Discipline
import CaviErp.Forge.Proofs.ParkingProofs

/-!
# The breaker keeps its discipline

`BreakerStep` lists what a call can do to the breaker under a key and which attempts it makes meanwhile.
Everything about whole runs follows from that list, by induction on the calls.
-/

namespace CaviErp

open Py

namespace ForgeWriteAgent

/-! ## What a call does to a breaker -/

/-- All that can become of a breaker in a call, with the attempts the call makes under its key. -/
inductive BreakerStep (cfg : Config) (env : Env) (b : CircuitBreaker) :
    CircuitBreaker → List Attempt → Prop
  | kept : BreakerStep cfg env b b []
  | succeeded {a : Attempt} (hlet : (b.check cfg.breaker env.breakerClock).1 = none)
    (hok : a.failed = false) (hstart : a.started = env.breakerClock.state)
    (hquiet : a.tripped = false) : BreakerStep cfg env b {} [a]
  | failed {a : Attempt} (hlet : (b.check cfg.breaker env.breakerClock).1 = none)
    (hfailed : a.failed = true) (hstart : a.started = env.breakerClock.state)
    (hat : a.failedAt = env.breakerClock.failure)
    (htripped : a.tripped = ((b.check cfg.breaker env.breakerClock).2.recordFailure cfg.breaker
      env.breakerClock).1) :
    BreakerStep cfg env b
      ((b.check cfg.breaker env.breakerClock).2.recordFailure cfg.breaker env.breakerClock).2 [a]

/-- Between the worlds the breaker under the key took a step, and the trace shows its attempts. -/
def Steps (cfg : Config) (env : Env) (key : Json × Json) (w w' : World) : Prop :=
  ∃ seen, w'.trace = w.trace ++ seen ∧
    BreakerStep cfg env (breakerOf key w) (breakerOf key w')
      (seen.filterMap (attempt? cfg env key (breakerOf key w)))

/-- No breaker changes, and no call of the writer is seen. -/
structure Silent (w w' : World) : Prop where
  breakers : w'.self.breakers = w.self.breakers
  trace : ∃ seen, w'.trace = w.trace ++ seen ∧ ∀ o ∈ seen, ∃ writeId event, o = .emitted writeId event

namespace Silent

variable {w w' w'' : World}

theorem of_same (hbreakers : w'.self.breakers = w.self.breakers) (htrace : w'.trace = w.trace) :
    Silent w w' := ⟨hbreakers, [], by simp [htrace], by simp⟩

theorem breakerOf_eq (h : Silent w w') (key : Json × Json) : breakerOf key w' = breakerOf key w := by
  unfold breakerOf
  rw [h.breakers]

variable {cfg : Config} {env : Env} {key : Json × Json}

theorem filterMap_attempt? {b : CircuitBreaker} {seen : List Obs}
    (h : ∀ o ∈ seen, ∃ writeId event, o = .emitted writeId event) :
    seen.filterMap (attempt? cfg env key b) = [] := by
  rw [List.filterMap_eq_nil_iff]
  intro o ho
  obtain ⟨writeId, event, rfl⟩ := h o ho
  rfl

theorem steps (h : Silent w w') : Steps cfg env key w w' := by
  obtain ⟨seen, htrace, hseen⟩ := h.trace
  refine ⟨seen, htrace, ?_⟩
  rw [filterMap_attempt? hseen, h.breakerOf_eq]
  exact .kept

theorem before (h : Silent w w') (hs : Steps cfg env key w' w'') : Steps cfg env key w w'' := by
  obtain ⟨seen, htrace, hseen⟩ := h.trace
  obtain ⟨seen', htrace', hstep⟩ := hs
  refine ⟨seen ++ seen', by rw [htrace', htrace, List.append_assoc], ?_⟩
  rw [List.filterMap_append, filterMap_attempt? hseen, List.nil_append]
  rw [h.breakerOf_eq] at hstep
  exact hstep

theorem after (hs : Steps cfg env key w w') (h : Silent w' w'') : Steps cfg env key w w'' := by
  obtain ⟨seen, htrace, hseen⟩ := h.trace
  obtain ⟨seen', htrace', hstep⟩ := hs
  refine ⟨seen' ++ seen, by rw [htrace, htrace', List.append_assoc], ?_⟩
  rw [List.filterMap_append, filterMap_attempt? hseen, List.append_nil, h.breakerOf_eq]
  exact hstep

end Silent

section Call

variable {cfg : Config} {env : Env} {event : Event} {key : Json × Json}

theorem deadLetter_silent (cfg : Config) (env : Env) (ev : Event) (error : String) (w : World) :
    Silent w (deadLetter cfg env ev error w).2 := by
  have hself : (deadLetter cfg env ev error w).2.self = w.self := BaseAgent.deadLetter_self ..
  exact .of_same (by rw [hself]) (BaseAgent.deadLetter_trace ..)

theorem emit_silent (cfg : Config) (env : Env) (step : WriteStep) (correlationId : Json) (w : World) :
    Silent w (emit cfg env step correlationId w).2 := by
  have hbreakers : (emit cfg env step correlationId w).2.self.breakers = w.self.breakers := by
    rw [emit_self]
  rcases BaseAgent.emit_trace cfg.rt env.infra
    (Obs.emitted step.op.writeId (stepEvent env step correlationId))
    (stepEvent env step correlationId) w with hsame | hgrown
  · exact .of_same hbreakers hsame
  · exact ⟨hbreakers, _, hgrown, by simp⟩

theorem breakerOf_withBreaker (key' : Json × Json) (b : CircuitBreaker) (w : World) :
    breakerOf key (withBreaker key' b w) = if key = key' then b else breakerOf key w := by
  by_cases hk : key = key'
  · simp [breakerOf, withBreaker, hk]
  · simp [breakerOf, withBreaker, hk]

/-- What a call leaves under a key is what it put there last. -/
theorem breakerOf_withBreaker_withBreaker (key' : Json × Json) (b b' : CircuitBreaker) (w : World) :
    breakerOf key (withBreaker key' b (withBreaker key' b' w)) =
      if key = key' then b else breakerOf key w := by
  rw [breakerOf_withBreaker]
  by_cases hk : key = key'
  · rw [if_pos hk, if_pos hk]
  · rw [if_neg hk, if_neg hk, breakerOf_withBreaker, if_neg hk]

/-- A breaker that refuses stays as it is. -/
theorem check_of_refusal {b : CircuitBreaker} {config : BreakerConfig} {clock : BreakerClock}
    (h : (b.check config clock).1 ≠ none) : (b.check config clock).2 = b := by
  unfold CircuitBreaker.check at h ⊢
  cases hs : b.state config clock.state with
  | closed => simp [hs] at h
  | «open» => simp
  | halfOpen =>
    by_cases hp : b.probing = true
    · simp [hp]
    · simp [hs, hp] at h

/-- A call of the writer, and what it makes of the breaker of the write, seen under any key. -/
theorem steps_of_applied {op : WriteOperation} {key' : Json × Json} {w w' : World}
    {outcome : Except String Obj} (b : CircuitBreaker) (hkey : breakerKey op = .ok key')
    (htrace : w'.trace = w.trace ++ [.applied op outcome])
    (hbreaker : ∀ k, breakerOf k w' = if k = key' then b else breakerOf k w)
    (hstep : ∀ a, attempt? cfg env key' (breakerOf key' w) (.applied op outcome) = some a →
      BreakerStep cfg env (breakerOf key' w) b [a]) : Steps cfg env key w w' := by
  refine ⟨_, htrace, ?_⟩
  rw [hbreaker]
  by_cases hk : key = key'
  · subst hk
    rw [if_pos rfl]
    cases ha : attempt? cfg env key (breakerOf key w) (.applied op outcome) with
    | none => simp [attempt?, hkey] at ha
    | some a =>
      rw [List.filterMap_cons, ha, List.filterMap_nil]
      exact hstep a ha
  · -- under another key the call is not seen
    have hne : ¬ key' = key := fun h => hk h.symm
    have hnone : attempt? cfg env key (breakerOf key w) (.applied op outcome) = none := by
      simp [attempt?, hkey, hne]
    rw [if_neg hk, List.filterMap_cons, hnone, List.filterMap_nil]
    exact .kept

/-- What `_execute` does to a breaker. -/
theorem execute_steps {op : WriteOperation} {correlationId : Json} (hstate : op.state = .approved)
    (w : World) : Steps cfg env key w (execute cfg env op event correlationId w).2 := by
  have hcourse := execute_course cfg env event hstate correlationId w
  generalize execute cfg env op event correlationId w = r at hcourse
  cases hcourse with
  | unkeyed hkey => exact (Silent.of_same rfl rfl).steps
  | @refused key' refusal hkey hcheck =>
    have hsame : ((breakerOf key' w).check cfg.breaker env.breakerClock).2 = breakerOf key' w := by
      refine check_of_refusal ?_
      rw [hcheck]
      exact Option.some_ne_none refusal
    refine Silent.after ⟨[], by simp [withBreaker], ?_⟩ (deadLetter_silent _ _ _ _ _)
    rw [breakerOf_withBreaker, hsame]
    split
    · rename_i hk
      rw [← hk]
      exact .kept
    · exact .kept
  | @failed key' text hkey hcheck hw =>
    set checked := (breakerOf key' w).check cfg.breaker env.breakerClock with hchecked
    have hisOk : (Except.error text : Except String Obj).isOk = false := rfl
    have hstep : Steps cfg env key w (withBreaker key'
        (checked.2.recordFailure cfg.breaker env.breakerClock).2
        (appliedWorld env op (withBreaker key' checked.2 w))) := by
      refine steps_of_applied (checked.2.recordFailure cfg.breaker env.breakerClock).2 hkey rfl
        (fun _ => breakerOf_withBreaker_withBreaker ..) ?_
      intro a ha
      rw [hw] at ha
      simp only [attempt?, hkey, if_pos, Option.some.injEq] at ha
      subst ha
      exact .failed hcheck (by simp [Attempt.failed, hisOk]) rfl rfl (by simp [hisOk])
    rw [onWriteFailed_eq]
    split
    · exact Silent.after hstep (deadLetter_silent _ _ _ _ _)
    · exact hstep
  | @written key' confirmation hkey hcheck hw =>
    set checked := (breakerOf key' w).check cfg.breaker env.breakerClock with hchecked
    have hisOk : (Except.ok confirmation : Except String Obj).isOk = true := rfl
    -- up to the world in which the completion is emitted
    have hstep : Steps cfg env key w { appliedWorld env op (withBreaker key' checked.2 w) with
        self := {
          pending := Function.update w.self.pending op.writeId none
          completed := Function.update w.self.completed op.writeId
            (some { op with state := .completed })
          breakers := Function.update (Function.update w.self.breakers key' (some checked.2)) key'
            (some checked.2.recordSuccess) } } := by
      refine steps_of_applied checked.2.recordSuccess hkey rfl
        (fun _ => breakerOf_withBreaker_withBreaker ..) ?_
      intro a ha
      rw [hw] at ha
      simp only [attempt?, hkey, if_pos, Option.some.injEq] at ha
      subst ha
      exact .succeeded hcheck (by simp [Attempt.failed, hisOk]) rfl (by simp [hisOk])
    exact Silent.after hstep (emit_silent _ _ _ _ _)

/-- What `handle` does to a breaker. -/
theorem handle_steps (cfg : Config) (env : Env) (event : Event) (key : Json × Json) (w : World) :
    Steps cfg env key w (handle cfg env event w).2 := by
  have hcourse := handle_course cfg env event w
  generalize handle cfg env event w = r at hcourse
  cases hcourse with
  | idle r => exact (Silent.of_same rfl rfl).steps
  | quarantined error => exact (deadLetter_silent _ _ _ _ _).steps
  | proposed h => exact Silent.before (.of_same rfl rfl) (emit_silent _ _ _ _ _).steps
  | retried h hop hstate => exact execute_steps hstate w
  | approved h hreviewer hop hstate =>
    rename_i writeId op reviewer
    have hpended : Silent w (pended writeId { op with state := .approved } w) := .of_same rfl rfl
    refine hpended.before ?_
    have hemit := emit_silent cfg env (approvedStep env.coordinator op reviewer)
      event.correlationId (pended writeId { op with state := .approved } w)
    rcases announceAndExecute_cases cfg env event op reviewer
      (pended writeId { op with state := .approved } w) with ⟨e, -, hr⟩ | ⟨-, hr⟩
    · rw [hr]
      exact hemit.steps
    · rw [hr]
      exact hemit.before (execute_steps rfl _)
  | rejected h hop hstate => exact Silent.before (.of_same rfl rfl) (emit_silent _ _ _ _ _).steps

end Call

/-! ## Runs -/

/-- The breaker and the attempts under its key agree. -/
structure Tracks (config : BreakerConfig) (b : CircuitBreaker) (attempts : List Attempt) : Prop where
  count : b.consecutiveFailures = failures attempts
  opened : b.openedAt =
    if config.failureThreshold ≤ failures attempts then attempts.getLast?.map Attempt.failedAt else none
  idle : b.probing = false

/-- What is known of each attempt from those before it. -/
structure Orderly (config : BreakerConfig) (pre : List Attempt) (a : Attempt) : Prop where
  cooled : config.failureThreshold ≤ failures pre →
    ∃ last, pre.getLast? = some last ∧ last.failed = true ∧
      config.cooldownSeconds ≤ Binary64.sub a.started last.failedAt
  tripped : a.tripped = true ↔ a.failed = true ∧ failures pre + 1 = config.failureThreshold

theorem recordFailure_open {b : CircuitBreaker} {config : BreakerConfig} {clock : BreakerClock}
    (h : config.failureThreshold ≤ b.consecutiveFailures + 1 ∨ b.openedAt.isSome) :
    (b.recordFailure config clock).2 =
      { consecutiveFailures := b.consecutiveFailures + 1, openedAt := some clock.failure } := by
  rw [CircuitBreaker.recordFailure]
  simp only [if_pos h]

theorem recordFailure_closed {b : CircuitBreaker} {config : BreakerConfig} {clock : BreakerClock}
    (h : ¬ (config.failureThreshold ≤ b.consecutiveFailures + 1 ∨ b.openedAt.isSome)) :
    (b.recordFailure config clock).2 =
      { b with consecutiveFailures := b.consecutiveFailures + 1, probing := false } := by
  rw [CircuitBreaker.recordFailure]
  simp only [if_neg h]

section Run

variable {cfg : Config} {env : Env} {b b' : CircuitBreaker} {attempts new : List Attempt}

theorem Tracks.isSome_iff (h : Tracks cfg.breaker b attempts) :
    b.openedAt.isSome ↔ cfg.breaker.failureThreshold ≤ failures attempts := by
  rw [h.opened]
  by_cases hle : cfg.breaker.failureThreshold ≤ failures attempts
  · obtain ⟨last, hlast, -⟩ := getLast?_of_streak_pos Attempt.failed
      (show 0 < streak Attempt.failed attempts from lt_of_lt_of_le cfg.breaker.threshold_pos hle)
    simp [hle, hlast]
  · simp [hle]

/-- A breaker that is open lets a write through a cooldown after the last failure. -/
theorem Tracks.cooled (h : Tracks cfg.breaker b attempts) {clock : BreakerClock}
    (hlet : (b.check cfg.breaker clock).1 = none)
    (hle : cfg.breaker.failureThreshold ≤ failures attempts) :
    ∃ last, attempts.getLast? = some last ∧ last.failed = true ∧
      cfg.breaker.cooldownSeconds ≤ Binary64.sub clock.state last.failedAt := by
  obtain ⟨last, hlast, hfailed⟩ := getLast?_of_streak_pos Attempt.failed
    (show 0 < streak Attempt.failed attempts from lt_of_lt_of_le cfg.breaker.threshold_pos hle)
  refine ⟨last, hlast, hfailed, ?_⟩
  have hopen : b.openedAt = some last.failedAt := by
    rw [h.opened, if_pos hle, hlast]
    rfl
  by_contra hearly
  have hstate : b.state cfg.breaker clock.state = .open := by
    rw [CircuitBreaker.state, hopen]
    exact if_neg hearly
  rw [CircuitBreaker.check, hstate] at hlet
  cases hlet

theorem Tracks.step (h : Tracks cfg.breaker b attempts) (hs : BreakerStep cfg env b b' new) :
    Tracks cfg.breaker b' (attempts ++ new) ∧ ∀ a ∈ new, Orderly cfg.breaker attempts a := by
  cases hs with
  | kept => exact ⟨by simpa using h, by simp⟩
  | @succeeded a hlet hok hstart hquiet =>
    have hreset : failures (attempts ++ [a]) = 0 := by
      rw [failures, streak_snoc, hok]
      rfl
    have hpos := cfg.breaker.threshold_pos
    refine ⟨⟨hreset.symm, ?_, rfl⟩, ?_⟩
    · rw [hreset, if_neg (by omega)]
    · intro x hx
      obtain rfl := List.mem_singleton.mp hx
      refine ⟨fun hle => ?_, by simp [hquiet, hok]⟩
      rw [hstart]
      exact h.cooled hlet hle
  | @failed a hlet hfailed hstart hat htripped =>
    have hgrown : failures (attempts ++ [a]) = failures attempts + 1 := by
      rw [failures, streak_snoc, hfailed]
      rfl
    obtain ⟨hopened, hcount⟩ := check_openedAt b cfg.breaker env.breakerClock
    set checked := (b.check cfg.breaker env.breakerClock).2 with hchecked
    rw [h.count] at hcount
    have hwas : checked.openedAt.isSome ↔ cfg.breaker.failureThreshold ≤ failures attempts := by
      rw [hopened]
      exact h.isSome_iff
    have hcond : (cfg.breaker.failureThreshold ≤ checked.consecutiveFailures + 1 ∨
        checked.openedAt.isSome) ↔ cfg.breaker.failureThreshold ≤ failures attempts + 1 := by
      rw [hwas, hcount]
      omega
    refine ⟨?_, ?_⟩
    · by_cases hle : cfg.breaker.failureThreshold ≤ failures attempts + 1
      · rw [recordFailure_open (hcond.mpr hle), hcount]
        refine ⟨hgrown.symm, ?_, rfl⟩
        rw [hgrown, if_pos hle]
        simp [hat]
      · rw [recordFailure_closed (mt hcond.mp hle), hcount]
        refine ⟨hgrown.symm, ?_, rfl⟩
        rw [hgrown, if_neg hle]
        show checked.openedAt = none
        rw [hopened, h.opened, if_neg (by omega)]
    · intro x hx
      obtain rfl := List.mem_singleton.mp hx
      refine ⟨fun hle => ?_, ?_⟩
      · rw [hstart]
        exact h.cooled hlet hle
      · rw [htripped, recordFailure_iff, Trips, hcount]
        have hnone : checked.openedAt = none ↔ ¬ cfg.breaker.failureThreshold ≤ failures attempts := by
          rw [← hwas]
          simp
        simp only [hnone, hfailed, true_and]
        omega

theorem BreakerStep.at_most_one (hs : BreakerStep cfg env b b' new) : new = [] ∨ ∃ a, new = [a] := by
  cases hs with
  | kept => exact .inl rfl
  | @succeeded a => exact .inr ⟨a, rfl⟩
  | @failed a => exact .inr ⟨a, rfl⟩

end Run

theorem attemptsFrom_append (cfg : Config) (key : Json × Json) (w : World)
    (calls more : List (Env × Event)) : attemptsFrom cfg key w (calls ++ more) =
      attemptsFrom cfg key w calls ++
        attemptsFrom cfg key (Action.serve (fun c => handle cfg c.1 c.2) w calls) more := by
  induction calls generalizing w with
  | nil => rfl
  | cons c calls ih =>
    rw [List.cons_append, attemptsFrom, attemptsFrom, ih, List.append_assoc]
    rfl

theorem history_snoc (cfg : Config) (key : Json × Json) (calls : List (Env × Event))
    (c : Env × Event) : history cfg key (calls ++ [c]) =
      history cfg key calls ++ attemptsOf cfg key c (served cfg calls) := by
  rw [history, attemptsFrom_append, attemptsFrom, attemptsFrom, List.append_nil]
  rfl

theorem attemptsOf_step (cfg : Config) (key : Json × Json) (c : Env × Event) (w : World) :
    BreakerStep cfg c.1 (breakerOf key w) (breakerOf key (handle cfg c.1 c.2 w).2)
      (attemptsOf cfg key c w) := by
  obtain ⟨seen, htrace, hstep⟩ := handle_steps cfg c.1 c.2 key w
  have hdrop : (handle cfg c.1 c.2 w).2.trace.drop w.trace.length = seen := by
    rw [htrace, List.drop_left]
  rw [attemptsOf, hdrop]
  exact hstep

theorem attempt?_applied (cfg : Config) (env : Env) (key : Json × Json) (b : CircuitBreaker) (o : Obs) :
    (attempt? cfg env key b o).map (fun a => (a.op, a.outcome)) = appliedUnder key o := by
  cases o with
  | emitted writeId event => rfl
  | applied op outcome =>
    cases hkey : breakerKey op with
    | error e => simp [attempt?, appliedUnder, hkey]
    | ok k =>
      by_cases hk : k = key
      · simp [attempt?, appliedUnder, hkey, hk]
      · simp [attempt?, appliedUnder, hkey, hk]

theorem history_applied (cfg : Config) (key : Json × Json) (calls : List (Env × Event)) :
    (history cfg key calls).map (fun a => (a.op, a.outcome)) =
      (served cfg calls).trace.filterMap (appliedUnder key) := by
  induction calls using List.reverseRecOn with
  | nil => rfl
  | append_singleton calls c ih =>
    obtain ⟨seen, htrace, -⟩ := handle_steps cfg c.1 c.2 key (served cfg calls)
    have hnew : (attemptsOf cfg key c (served cfg calls)).map (fun a => (a.op, a.outcome)) =
        seen.filterMap (appliedUnder key) := by
      rw [attemptsOf, htrace, List.drop_left, List.map_filterMap]
      exact List.filterMap_congr fun o _ => attempt?_applied ..
    rw [history_snoc, served_snoc, htrace, List.map_append, List.filterMap_append, ih, hnew]

/-- The attempt was made in one of the calls, at its readings of the clock. -/
def ReadIn (calls : List (Env × Event)) (a : Attempt) : Prop :=
  ∃ c ∈ calls, a.started = c.1.breakerClock.state ∧ a.failedAt = c.1.breakerClock.failure

theorem attempt?_readings {cfg : Config} {env : Env} {key : Json × Json} {b : CircuitBreaker} {o : Obs}
    {a : Attempt} (h : attempt? cfg env key b o = some a) :
    a.started = env.breakerClock.state ∧ a.failedAt = env.breakerClock.failure := by
  cases o with
  | emitted writeId event => cases h
  | applied op outcome =>
    simp only [attempt?] at h
    split at h
    · cases h
    · split at h
      · obtain rfl := Option.some.inj h
        exact ⟨rfl, rfl⟩
      · cases h

theorem history_readings (cfg : Config) (key : Json × Json) (calls : List (Env × Event)) :
    ∀ a ∈ history cfg key calls, ReadIn calls a := by
  induction calls using List.reverseRecOn with
  | nil => exact nofun
  | append_singleton calls c ih =>
    intro a ha
    rw [history_snoc] at ha
    rcases List.mem_append.mp ha with ha | ha
    · obtain ⟨c', hc', hread⟩ := ih a ha
      exact ⟨c', List.mem_append_left _ hc', hread⟩
    · obtain ⟨o, -, ho⟩ := List.mem_filterMap.mp ha
      exact ⟨c, List.mem_append_right _ List.mem_cons_self, attempt?_readings ho⟩

/-- Without rounding an attempt waits for the whole cooldown. -/
theorem Waits.exactly {cfg : Config} {calls : List (Env × Event)} {attempts : List Attempt}
    (h : Waits cfg Binary64.sub attempts) (hread : ∀ a ∈ attempts, ReadIn calls a)
    (hunrounded : UnroundedReadings cfg calls) : Waits cfg (· - ·) attempts := by
  intro pre a post hsplit hle
  obtain ⟨last, hlast, hfailed, hwait⟩ := h pre a post hsplit hle
  subst hsplit
  obtain ⟨c, hc, -, hat⟩ := hread last (List.mem_append_left _ (List.mem_of_getLast? hlast))
  obtain ⟨c', hc', hstarted, -⟩ := hread a (List.mem_append_right _ List.mem_cons_self)
  rw [hstarted, hat] at hwait
  refine ⟨last, hlast, hfailed, ?_⟩
  rw [hstarted, hat]
  exact hunrounded c hc c' hc' hwait

/-- What holds after every run. -/
theorem served_tracks (cfg : Config) (key : Json × Json) (calls : List (Env × Event)) :
    Tracks cfg.breaker (breakerOf key (served cfg calls)) (history cfg key calls) ∧
      ∀ pre a post, history cfg key calls = pre ++ a :: post → Orderly cfg.breaker pre a := by
  induction calls using List.reverseRecOn with
  | nil =>
    have hpos := cfg.breaker.threshold_pos
    refine ⟨⟨rfl, ?_, rfl⟩, ?_⟩
    · have hzero : failures (history cfg key []) = 0 := rfl
      rw [hzero, if_neg (by omega)]
      rfl
    · intro pre a post hsplit
      have hnil : history cfg key [] = [] := rfl
      rw [hnil] at hsplit
      simp at hsplit
  | append_singleton calls c ih =>
    obtain ⟨htracks, horderly⟩ := ih
    have hstep := attemptsOf_step cfg key c (served cfg calls)
    rw [served_snoc, history_snoc]
    obtain ⟨htracks', hnew⟩ := htracks.step hstep
    refine ⟨htracks', ?_⟩
    intro pre a post hsplit
    rcases hstep.at_most_one with hnone | ⟨a', hone⟩
    · rw [hnone, List.append_nil] at hsplit
      exact horderly pre a post hsplit
    · rw [hone] at hsplit hnew
      rcases split_snoc hsplit with ⟨post', hold⟩ | ⟨rfl, rfl⟩
      · exact horderly pre a post' hold
      · exact hnew a (by simp)

/-! ## Below the threshold -/

section Reaches

variable {cfg : Config} {env : Env} {event : Event} {key : Json × Json} {w : World}

/-- A write that the breaker lets through reaches the writer. -/
theorem execute_applies (cfg : Config) (env : Env) (event : Event) {op : WriteOperation}
    (correlationId : Json) (hstate : op.state = .approved)
    (hkey : breakerKey op = .ok key)
    (hlet : ((breakerOf key w).check cfg.breaker env.breakerClock).1 = none) :
    ∃ seen, (execute cfg env op event correlationId w).2.trace =
      w.trace ++ .applied op (env.coordinator.writer op) :: seen := by
  cases hw : env.coordinator.writer op with
  | error text =>
    rw [execute_of_failure hstate hkey hlet hw, onWriteFailed_eq, ← hw]
    split
    · obtain ⟨seen, hseen, -⟩ := (deadLetter_silent cfg env event
        ("circuit breaker opened; last error: " ++ text) (withBreaker key
          (((breakerOf key w).check cfg.breaker env.breakerClock).2.recordFailure cfg.breaker
            env.breakerClock).2 (appliedWorld env op (withBreaker key
              ((breakerOf key w).check cfg.breaker env.breakerClock).2 w)))).trace
      refine ⟨seen, ?_⟩
      rw [hseen]
      simp [withBreaker, appliedWorld]
    · exact ⟨[], rfl⟩
  | ok confirmation =>
    rw [execute_of_success hstate hkey hlet hw, ← hw]
    obtain ⟨seen, hseen, -⟩ := (emit_silent cfg env
      (completedStep env.coordinator op confirmation) correlationId
      { appliedWorld env op (withBreaker key
          ((breakerOf key w).check cfg.breaker env.breakerClock).2 w) with
        self := {
          pending := Function.update w.self.pending op.writeId none
          completed := Function.update w.self.completed op.writeId (some { op with state := .completed })
          breakers := Function.update (Function.update w.self.breakers key
            (some ((breakerOf key w).check cfg.breaker env.breakerClock).2)) key
              (some ((breakerOf key w).check cfg.breaker env.breakerClock).2.recordSuccess) } }).trace
    refine ⟨seen, hseen.trans ?_⟩
    simp [withBreaker, appliedWorld]

/-- While the breaker is closed, an approval reaches the writer. -/
theorem approval_applies {op : WriteOperation} (h : Approves cfg env event key op w)
    (hstate : op.state = .requested ∨ op.state = .approved)
    (hclosed : (breakerOf key w).openedAt = none) :
    .applied { op with state := .approved } (env.coordinator.writer { op with state := .approved }) ∈
      (handle cfg env event w).2.trace.drop w.trace.length := by
  have hlet : ∀ w', breakerOf key w' = breakerOf key w →
      ((breakerOf key w').check cfg.breaker env.breakerClock).1 = none := by
    intro w' hw'
    rw [hw', CircuitBreaker.check, CircuitBreaker.state, hclosed]
  rcases hstate with hstate | hstate
  · obtain ⟨reviewer, hreviewer, hemits⟩ := h.emits hstate
    rw [handle_of_approval h.approval hreviewer h.pending hstate, announceAndExecute,
      Action.bind_apply, emit_of_emits hemits]
    have hsilent := emit_silent cfg env (approvedStep env.coordinator op reviewer)
      event.correlationId (pended op.writeId { op with state := .approved } w)
    rw [emit_of_emits hemits] at hsilent
    obtain ⟨seen, hseen, -⟩ := hsilent.trace
    have hstate' : ({ op with state := .approved } : WriteOperation).state = .approved := rfl
    obtain ⟨seen', hseen'⟩ := execute_applies cfg env event event.correlationId hstate' h.keyed
      (hlet _ (hsilent.breakerOf_eq key))
    show _ ∈ (execute cfg env { op with state := .approved } event event.correlationId _).2.trace.drop _
    rw [hseen', hseen]
    simp [pended]
  · have happroved := with_approved hstate
    rw [happroved, handle_of_replay h.approval h.pending hstate]
    obtain ⟨seen, hseen⟩ := execute_applies cfg env event event.correlationId hstate h.keyed (hlet w rfl)
    rw [hseen]
    simp

end Reaches

theorem history_waits (cfg : Config) (key : Json × Json) (calls : List (Env × Event)) :
    Waits cfg Binary64.sub (history cfg key calls) := by
  intro pre a post hsplit
  exact ((served_tracks cfg key calls).2 pre a post hsplit).cooled

/-- Over every run, for every tenant and platform. -/
theorem breaker_disciplined (cfg : Config) (key : Json × Json) (calls : List (Env × Event)) :
    Disciplined cfg key calls := by
  obtain ⟨htracks, horderly⟩ := served_tracks cfg key calls
  have hcooled := history_waits cfg key calls
  refine ⟨history_applied cfg key calls, ?_, hcooled, ?_, ?_, ?_, htracks.isSome_iff⟩
  · intro hbelow env event op h
    have hstate := ((served_keyed cfg calls).pending op.writeId op h.pending).2
    refine approval_applies h hstate ?_
    rw [htracks.opened, if_neg (by omega)]
  · exact hcooled.exactly (history_readings cfg key calls)
  · intro pre run post hsplit hpre hrun
    refine countP_mark Attempt.failed cfg.breaker.threshold_pos ?_ hsplit
      (streak_eq_zero Attempt.failed hpre) hrun
    intro pre a post hsplit
    exact (horderly pre a post hsplit).tripped
  · intro a ha hok
    obtain ⟨pre, post, hsplit⟩ := List.append_of_mem ha
    by_contra htripped
    have hfailed := ((horderly pre a post hsplit).tripped.mp (by simpa using htripped)).1
    rw [hok] at hfailed
    cases hfailed

/-! ## A probe before the cooldown is over -/

def down (_ : WriteOperation) : Except String Obj := .error "down"

/-- A call of `handle` all of whose readings of the clock are the same. -/
def readAt (now : ℚ) (call : Env × Event) : Env × Event :=
  ({ call.1 with breakerClock := ⟨now, now, now⟩ }, call.2)

/-- 8.272 as a float. -/
def openedReading : ℚ := 4656722014701093 / 2 ^ 49

/-- 308.272 as a float: less than 300 later, by a difference that is rounded to 300. -/
def probeReading : ℚ := 5423178376284209 / 2 ^ 44

/-- The approval of an order fails five times at one reading of the clock, and once more at the other. -/
def probedRun : List (Env × Event) :=
  [readAt openedReading (orderEnv "0" "w-1" down, orderProposal 10),
    readAt openedReading (orderEnv "1" "w-2" down, approval "w-1"),
    readAt openedReading (orderEnv "2" "w-3" down, approval "w-1"),
    readAt openedReading (orderEnv "3" "w-4" down, approval "w-1"),
    readAt openedReading (orderEnv "4" "w-5" down, approval "w-1"),
    readAt openedReading (orderEnv "5" "w-6" down, approval "w-1"),
    readAt probeReading (orderEnv "6" "w-7" down, approval "w-1")]

theorem probedRun_attempts :
    (history orderConfig ("acme", "netsuite") probedRun).map (fun a => (a.failed, a.started, a.failedAt)) =
      [(true, openedReading, openedReading), (true, openedReading, openedReading),
        (true, openedReading, openedReading), (true, openedReading, openedReading),
        (true, openedReading, openedReading), (true, probeReading, probeReading)] := by
  decide +kernel

/-- Five failures in a row and another attempt, which does not wait as long as it should. -/
theorem not_waits {cfg : Config} {elapsed : ℚ → ℚ → ℚ} {attempts : List Attempt} {now later : ℚ}
    (hthreshold : cfg.breaker.failureThreshold = 5)
    (hattempts : attempts.map (fun a => (a.failed, a.started, a.failedAt)) =
      [(true, now, now), (true, now, now), (true, now, now), (true, now, now), (true, now, now),
        (true, later, later)])
    (hearly : elapsed later now < cfg.breaker.cooldownSeconds) : ¬ Waits cfg elapsed attempts := by
  intro h
  obtain ⟨a₁, l₁, rfl, h₁, hattempts⟩ := List.map_eq_cons_iff.mp hattempts
  obtain ⟨a₂, l₂, rfl, h₂, hattempts⟩ := List.map_eq_cons_iff.mp hattempts
  obtain ⟨a₃, l₃, rfl, h₃, hattempts⟩ := List.map_eq_cons_iff.mp hattempts
  obtain ⟨a₄, l₄, rfl, h₄, hattempts⟩ := List.map_eq_cons_iff.mp hattempts
  obtain ⟨a₅, l₅, rfl, h₅, hattempts⟩ := List.map_eq_cons_iff.mp hattempts
  obtain ⟨a₆, l₆, rfl, h₆, -⟩ := List.map_eq_cons_iff.mp hattempts
  simp only [Prod.mk.injEq] at h₁ h₂ h₃ h₄ h₅ h₆
  have hfive : failures [a₁, a₂, a₃, a₄, a₅] = 5 := by
    simp [failures, streak, h₁, h₂, h₃, h₄, h₅]
  obtain ⟨last, hlast, -, hwait⟩ := h [a₁, a₂, a₃, a₄, a₅] a₆ l₆ rfl (by rw [hfive, hthreshold])
  obtain rfl : a₅ = last := Option.some.inj hlast
  rw [h₅.2.2, h₆.2.1] at hwait
  exact absurd hwait (not_le.mpr hearly)

/-- An open breaker lets the last approval through, although the cooldown is not over. -/
theorem probe_before_cooldown :
    Binary64.IsDouble openedReading ∧ Binary64.IsDouble probeReading ∧ openedReading ≤ probeReading ∧
      ¬ Waits orderConfig (· - ·) (history orderConfig ("acme", "netsuite") probedRun) := by
  refine ⟨⟨4656722014701093, -49, by norm_num, by omega, by omega, ?_⟩,
    ⟨5423178376284209, -44, by norm_num, by omega, by omega, ?_⟩, ?_, ?_⟩
  · norm_num [openedReading]
  · norm_num [probeReading]
  · norm_num [openedReading, probeReading]
  · refine not_waits rfl probedRun_attempts ?_
    show probeReading - openedReading < 300
    norm_num [openedReading, probeReading]

end ForgeWriteAgent

end CaviErp

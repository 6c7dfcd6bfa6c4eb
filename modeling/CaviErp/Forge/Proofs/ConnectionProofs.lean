import CaviErp.Forge.Connection
import CaviErp.Forge.Proofs.DisciplineProofs

/-!
# One breaker for each spelling

Two spellings of one platform have a breaker each, so the discipline of a breaker is one of the connection
only as far as a tenant keeps to one spelling. Where it does, the attempts over the connection are those
under one key.
-/

namespace CaviErp

open Py

namespace ForgeWriteAgent

/-! ## Keys and connections -/

theorem dictKey_eq_str {j : Json} {s : String} (h : j.dictKey = some (.str s)) : j = .str s := by
  cases j with
  | str t =>
    obtain rfl := Json.str.inj (Option.some.inj h)
    rfl
  | float x =>
    cases x with
    | finite q =>
      have hsome := Option.some.inj h
      split at hsome <;> cases hsome
    | _ => cases h
  | _ => cases h

theorem breakerKey_of_dictKeys {op : WriteOperation} {t p : Json} (ht : op.tenantId.dictKey = some t)
    (hp : op.erpPlatform.dictKey = some p) : breakerKey op = .ok (t, p) := by
  unfold breakerKey
  rw [ht, hp]

variable {op : WriteOperation} {conn : Json × String} {s : String}

theorem connection_eq_some (h : connection op = some conn) :
    ∃ s, op.erpPlatform = .str s ∧ op.tenantId.dictKey = some conn.1 ∧
      Vault.normalizePlatform (.str s) = .ok conn.2 := by
  unfold connection at h
  split at h
  · rename_i tenant platform htenant hplatform
    obtain rfl := Option.some.inj h
    cases hp : op.erpPlatform with
    | str s =>
      rw [hp] at hplatform
      exact ⟨s, rfl, htenant, hplatform⟩
    | _ =>
      rw [hp] at hplatform
      cases hplatform
  · cases h

theorem breakerKey_of_connection (h : connection op = some conn) (hs : op.erpPlatform = .str s) :
    breakerKey op = .ok (conn.1, .str s) := by
  obtain ⟨-, -, htenant, -⟩ := connection_eq_some h
  exact breakerKey_of_dictKeys htenant (by rw [hs]; rfl)

theorem connection_of_breakerKey (hkey : breakerKey op = .ok (conn.1, .str s))
    (hs : Vault.normalizePlatform (.str s) = .ok conn.2) : connection op = some conn := by
  unfold breakerKey at hkey
  split at hkey
  · rename_i t p htenant hplatform
    obtain ⟨rfl, rfl⟩ := Prod.mk.inj (Except.ok.inj hkey)
    unfold connection
    rw [htenant, dictKey_eq_str hplatform, hs]
  · cases hkey

/-- The breaker of a write is that of the string. -/
theorem sameBreaker_iff (tenant p q : String) : SameBreaker tenant p q ↔ p = q := by
  constructor
  · intro h
    let write : String → WriteOperation := fun platform =>
      ⟨"", .str tenant, .str platform, .null, .null, [], .null, .null, .requested, .null, .null⟩
    obtain ⟨key, hp, hq⟩ := h (write p) (write q) rfl rfl rfl rfl
    have hkeys : ((Json.str tenant, Json.str p) : Json × Json) = (.str tenant, .str q) :=
      (Except.ok.inj hp).trans (Except.ok.inj hq).symm
    exact Json.str.inj (congrArg Prod.snd hkeys)
  · rintro rfl op op' htenant hplatform htenant' hplatform'
    have hkey : ∀ o : WriteOperation, o.tenantId = .str tenant → o.erpPlatform = .str p →
        breakerKey o = .ok (.str tenant, .str p) := by
      intro o ht hp
      exact breakerKey_of_dictKeys (by rw [ht]; rfl) (by rw [hp]; rfl)
    exact ⟨_, hkey op htenant hplatform, hkey op' htenant' hplatform'⟩

/-! ## Where the writes come from -/

/-- A proposal of the run asked for the tenant and the platform of the write. -/
def Requested (calls : List (Env × Event)) (op : WriteOperation) : Prop :=
  ∃ c ∈ calls, ∃ r, Requests c.2 r ∧ op.tenantId = r.tenantId ∧ op.erpPlatform = r.erpPlatform

theorem Requested.mono {calls calls' : List (Env × Event)} (h : Requested calls op) (hsub : calls ⊆ calls') :
    Requested calls' op := by
  obtain ⟨c, hc, hr⟩ := h
  exact ⟨c, hsub hc, hr⟩

/-- Every write that the agent keeps or has handed to the writer was requested. -/
structure Originates (calls : List (Env × Event)) (v : View) : Prop where
  pending : ∀ writeId op, v.pending writeId = some op → Requested calls op
  completed : ∀ writeId op, v.completed writeId = some op → Requested calls op
  applied : ∀ op outcome, .applied op outcome ∈ v.trace → Requested calls op

namespace Originates

variable {calls : List (Env × Event)} {v v' : View} {cfg : Config} {env : Env} {event : Event}

theorem mono {calls' : List (Env × Event)} (h : Originates calls v) (hsub : calls ⊆ calls') :
    Originates calls' v where
  pending writeId op hop := (h.pending writeId op hop).mono hsub
  completed writeId op hop := (h.completed writeId op hop).mono hsub
  applied op outcome hop := (h.applied op outcome hop).mono hsub

theorem put (h : Originates calls v) (writeId : String) (hop : Requested calls op) :
    Originates calls (v.put writeId op) := by
  refine ⟨?_, h.completed, h.applied⟩
  intro id op' hop'
  rcases update_eq_some hop' with ⟨-, hsome⟩ | ⟨-, hold⟩
  · obtain rfl := Option.some.inj hsome
    exact hop
  · exact h.pending id op' hold

theorem pop (h : Originates calls v) (writeId : String) : Originates calls (v.pop writeId) := by
  refine ⟨?_, h.completed, h.applied⟩
  intro id op' hop'
  rcases update_eq_some hop' with ⟨-, hnone⟩ | ⟨-, hold⟩
  · cases hnone
  · exact h.pending id op' hold

theorem finish (h : Originates calls v) (writeId : String) (hop : Requested calls op) :
    Originates calls (v.finish writeId op) := by
  refine ⟨(h.pop writeId).pending, ?_, h.applied⟩
  intro id op' hop'
  rcases update_eq_some hop' with ⟨-, hsome⟩ | ⟨-, hold⟩
  · obtain rfl := Option.some.inj hsome
    exact hop
  · exact h.completed id op' hold

theorem announce (h : Originates calls v) (writeId : String) (event : Event) :
    Originates calls (v.tell (.emitted writeId event)) := by
  refine ⟨h.pending, h.completed, ?_⟩
  intro op outcome hop
  rcases List.mem_append.mp hop with hop | hop
  · exact h.applied op outcome hop
  · cases List.mem_singleton.mp hop

theorem apply (h : Originates calls v) (hop : Requested calls op) (outcome : Except String Obj) :
    Originates calls (v.tell (.applied op outcome)) := by
  refine ⟨h.pending, h.completed, ?_⟩
  intro op' outcome' hop'
  rcases List.mem_append.mp hop' with hop' | hop'
  · exact h.applied op' outcome' hop'
  · cases List.mem_singleton.mp hop'
    exact hop

theorem executed {ok : Bool} (h : Originates calls v) (hop : Requested calls op)
    (hex : Executed cfg env event op v ok v') : Originates calls v' := by
  have hdone : Requested calls { op with state := .completed } := hop
  cases hex with
  | refused => exact h
  | failed _ => exact h.apply hop _
  | unannounced _ _ => exact (h.apply hop _).finish _ hdone
  | completed _ _ => exact ((h.apply hop _).finish _ hdone).announce _ _

/-- A reversal is for the connection of the write that it reverses. -/
theorem proposed {self : ForgeWriteAgent} (hcompleted : ∀ writeId op, self.completed writeId = some op →
    Requested calls op) (h : Proposes env event self op) : Requested (calls ++ [(env, event)]) op := by
  cases h with
  | @proposal r hsub hr hop =>
    obtain ⟨-, htenant, hplatform, -⟩ := request_carries hop
    exact ⟨(env, event), List.mem_append_right _ List.mem_cons_self, r, ⟨hsub, hr⟩, htenant, hplatform⟩
  | reversal hsub hid horiginal _ _ _ _ hop =>
    unfold WriteCoordinator.requestReversal at hop
    split at hop
    · cases hop
    · obtain ⟨-, htenant, hplatform, -⟩ := request_carries hop
      obtain ⟨c, hc, r, hr, htenant', hplatform'⟩ := hcompleted _ _ horiginal
      exact ⟨c, List.mem_append_left _ hc, r, hr, htenant.trans htenant', hplatform.trans hplatform'⟩

theorem handle {w : World} (h : Originates calls (view w)) (cfg : Config) (c : Env × Event) :
    Originates (calls ++ [c]) (view (handle cfg c.1 c.2 w).2) := by
  have hmono := h.mono (List.subset_append_left calls [c])
  have hcourse := handle_course cfg c.1 c.2 w
  generalize ForgeWriteAgent.handle cfg c.1 c.2 w = r at hcourse
  -- an event that is emitted or refused leaves the writes as they are
  have hemit : ∀ (step : WriteStep) (w' : World), Originates (calls ++ [c]) (view w') →
      Originates (calls ++ [c]) (view (emit cfg c.1 step c.2.correlationId w').2) := by
    intro step w' hw'
    rcases emit_view cfg c.1 c.2 step w' with ⟨-, -, hview⟩ | ⟨-, hview⟩
    · rw [hview]
      exact hw'
    · rw [hview]
      exact hw'.announce _ _
  cases hcourse with
  | idle r => exact hmono
  | quarantined error =>
    rw [deadLetter_view]
    exact hmono
  | @proposed op hp => exact hemit _ _ (hmono.put op.writeId (proposed h.completed hp))
  | retried happroval hop hstate =>
    exact hmono.executed (hmono.pending _ _ hop) (execute_spec cfg c.1 c.2 hstate w)
  | @approved writeId op reviewer happroval hreviewer hop hstate =>
    have hpending := hmono.pending _ _ hop
    have hrequested : Requested (calls ++ [c]) { op with state := .approved } := hpending
    have hput := hmono.put writeId hrequested
    rcases announceAndExecute_executed cfg c.1 c.2 writeId op reviewer w with ⟨-, hview⟩ | ⟨-, hex⟩
    · rw [hview]
      exact hput
    · exact (hput.announce _ _).executed hrequested hex
  | @rejected writeId op reviewer reason hrefusal hop hstate => exact hemit _ _ (hmono.pop writeId)

end Originates

theorem served_originates (cfg : Config) (calls : List (Env × Event)) :
    Originates calls (view (served cfg calls)) := by
  induction calls using List.reverseRecOn with
  | nil =>
    refine ⟨fun _ _ hop => (by cases hop), fun _ _ hop => (by cases hop), ?_⟩
    intro op outcome hop
    simp [view, served, Action.serve] at hop
  | append_singleton calls c ih =>
    rw [served_snoc]
    exact ih.handle cfg c

/-! ## Attempts over a connection -/

section Attempts

variable {cfg : Config} {env : Env} {w : World} {o : Obs}

/-- Every call of the writer over a connection is an attempt. -/
theorem attemptOver?_applied (cfg : Config) (env : Env) (conn : Json × String) (w : World) (o : Obs) :
    (attemptOver? cfg env conn w o).map (fun a => (a.op, a.outcome)) = appliedOver conn o := by
  cases o with
  | emitted writeId event => rfl
  | applied op outcome =>
    by_cases hconn : connection op = some conn
    · obtain ⟨s, hs, -⟩ := connection_eq_some hconn
      have hkey := breakerKey_of_connection hconn hs
      simp [attemptOver?, appliedOver, hconn, hkey, attempt?]
    · simp [attemptOver?, appliedOver, hconn]

/-- Where the writes over the connection spell its platform one way, their attempts are those under one key. -/
theorem attemptOver?_eq (hs : Vault.normalizePlatform (.str s) = .ok conn.2)
    (ho : ∀ op outcome, o = .applied op outcome → connection op = some conn → op.erpPlatform = .str s) :
    attemptOver? cfg env conn w o =
      attempt? cfg env (conn.1, .str s) (breakerOf (conn.1, .str s) w) o := by
  cases o with
  | emitted writeId event => rfl
  | applied op outcome =>
    by_cases hconn : connection op = some conn
    · have hkey := breakerKey_of_connection hconn (ho op outcome rfl hconn)
      simp only [attemptOver?, if_pos hconn, hkey]
    · -- a write with the key would be one over the connection
      have hother : attempt? cfg env (conn.1, .str s) (breakerOf (conn.1, .str s) w) (.applied op outcome) =
          none := by
        cases hkey : breakerKey op with
        | error e => simp [attempt?, hkey]
        | ok k =>
          have hne : k ≠ (conn.1, .str s) := by
            rintro rfl
            exact hconn (connection_of_breakerKey hkey hs)
          simp [attempt?, hkey, hne]
      rw [hother]
      simp only [attemptOver?, if_neg hconn]

end Attempts

theorem attemptsOverFrom_append (cfg : Config) (conn : Json × String) (w : World)
    (calls more : List (Env × Event)) : attemptsOverFrom cfg conn w (calls ++ more) =
      attemptsOverFrom cfg conn w calls ++
        attemptsOverFrom cfg conn (Action.serve (fun c => handle cfg c.1 c.2) w calls) more := by
  induction calls generalizing w with
  | nil => rfl
  | cons c calls ih =>
    rw [List.cons_append, attemptsOverFrom, attemptsOverFrom, ih, List.append_assoc]
    rfl

theorem historyOver_snoc (cfg : Config) (conn : Json × String) (calls : List (Env × Event))
    (c : Env × Event) : historyOver cfg conn (calls ++ [c]) =
      historyOver cfg conn calls ++ attemptsOverOf cfg conn c (served cfg calls) := by
  rw [historyOver, attemptsOverFrom_append, attemptsOverFrom, attemptsOverFrom, List.append_nil]
  rfl

theorem historyOver_applied (cfg : Config) (conn : Json × String) (calls : List (Env × Event)) :
    (historyOver cfg conn calls).map (fun a => (a.op, a.outcome)) =
      (served cfg calls).trace.filterMap (appliedOver conn) := by
  induction calls using List.reverseRecOn with
  | nil => rfl
  | append_singleton calls c ih =>
    obtain ⟨seen, htrace, -⟩ := handle_steps cfg c.1 c.2 (.null, .null) (served cfg calls)
    have hnew : (attemptsOverOf cfg conn c (served cfg calls)).map (fun a => (a.op, a.outcome)) =
        seen.filterMap (appliedOver conn) := by
      rw [attemptsOverOf, htrace, List.drop_left, List.map_filterMap]
      exact List.filterMap_congr fun o _ => attemptOver?_applied ..
    rw [historyOver_snoc, served_snoc, htrace, List.map_append, List.filterMap_append, ih, hnew]

/-- The writes over the connection that were handed to the writer spell its platform this way. -/
def Spelled (conn : Json × String) (s : String) (trace : List Obs) : Prop :=
  ∀ op outcome, .applied op outcome ∈ trace → connection op = some conn → op.erpPlatform = .str s

theorem historyOver_eq {cfg : Config} {calls : List (Env × Event)}
    (hs : Vault.normalizePlatform (.str s) = .ok conn.2) (h : Spelled conn s (served cfg calls).trace) :
    historyOver cfg conn calls = history cfg (conn.1, .str s) calls := by
  induction calls using List.reverseRecOn with
  | nil => rfl
  | append_singleton calls c ih =>
    obtain ⟨seen, htrace, -⟩ := handle_steps cfg c.1 c.2 (conn.1, .str s) (served cfg calls)
    rw [served_snoc, htrace] at h
    have hold : Spelled conn s (served cfg calls).trace := by
      intro op outcome hop
      exact h op outcome (List.mem_append_left _ hop)
    have hnew : attemptsOverOf cfg conn c (served cfg calls) =
        attemptsOf cfg (conn.1, .str s) c (served cfg calls) := by
      rw [attemptsOverOf, attemptsOf, htrace, List.drop_left]
      refine List.filterMap_congr fun o ho => attemptOver?_eq hs ?_
      rintro op outcome rfl
      exact h op outcome (List.mem_append_right _ ho)
    rw [historyOver_snoc, history_snoc, ih hold, hnew]

/-! ## One spelling -/

/-- Where the writes spell the platform one way, the discipline of the breaker is that of the connection. -/
theorem guarded_of_spelled {cfg : Config} {calls : List (Env × Event)} {elapsed : ℚ → ℚ → ℚ}
    (hs : Vault.normalizePlatform (.str s) = .ok conn.2) (h : Spelled conn s (served cfg calls).trace)
    (hcooled : Waits cfg elapsed (history cfg (conn.1, .str s) calls)) : Guarded cfg elapsed conn calls := by
  refine ⟨historyOver_applied cfg conn calls, ?_⟩
  rw [historyOver_eq hs h]
  exact hcooled

/-- A connection over which nothing was written is guarded. -/
theorem guarded_of_unused {cfg : Config} {calls : List (Env × Event)}
    (h : ∀ op outcome, .applied op outcome ∈ (served cfg calls).trace → connection op ≠ some conn)
    (elapsed : ℚ → ℚ → ℚ) : Guarded cfg elapsed conn calls := by
  have happlied := historyOver_applied cfg conn calls
  have hnone : (served cfg calls).trace.filterMap (appliedOver conn) = [] := by
    rw [List.filterMap_eq_nil_iff]
    intro o ho
    cases o with
    | emitted writeId event => rfl
    | applied op outcome => simp only [appliedOver, if_neg (h op outcome ho)]
  refine ⟨happlied, ?_⟩
  intro pre a post hsplit
  rw [hnone, hsplit] at happlied
  simp at happlied

theorem spelled_of_oneSpelling {cfg : Config} {calls : List (Env × Event)} (hone : OneSpelling calls)
    {outcome : Except String Obj} (hop : .applied op outcome ∈ (served cfg calls).trace)
    (hconn : connection op = some conn) (hs : op.erpPlatform = .str s) :
    Spelled conn s (served cfg calls).trace := by
  intro op' outcome' hop' hconn'
  have horigin := (served_originates cfg calls).applied
  obtain ⟨c, hc, r, hr, htenant, hplatform⟩ := horigin op outcome hop
  obtain ⟨c', hc', r', hr', htenant', hplatform'⟩ := horigin op' outcome' hop'
  obtain ⟨t, ht, hkey, hnorm⟩ := connection_eq_some hconn
  obtain ⟨t', ht', hkey', hnorm'⟩ := connection_eq_some hconn'
  rw [← ht] at hnorm
  rw [← ht'] at hnorm'
  have hsame := hone c hc c' hc' r r' conn.2 hr hr' (by rw [← htenant, ← htenant', hkey, hkey'])
    (hplatform ▸ hnorm) (hplatform' ▸ hnorm')
  rw [hplatform', ← hsame, ← hplatform, hs]

/-- In a run that spells the platform of each connection one way, a connection is guarded as every breaker
is. -/
theorem guarded_of_oneSpelling {cfg : Config} {calls : List (Env × Event)} (hone : OneSpelling calls)
    {elapsed : ℚ → ℚ → ℚ} (hcooled : ∀ key, Waits cfg elapsed (history cfg key calls)) (conn : Json × String) :
    Guarded cfg elapsed conn calls := by
  by_cases hused : ∃ op outcome, .applied op outcome ∈ (served cfg calls).trace ∧ connection op = some conn
  · obtain ⟨op, outcome, hop, hconn⟩ := hused
    obtain ⟨s, hs, -, hnorm⟩ := connection_eq_some hconn
    exact guarded_of_spelled hnorm (spelled_of_oneSpelling hone hop hconn hs) (hcooled _)
  · refine guarded_of_unused (fun op outcome hop hconn => ?_) elapsed
    exact hused ⟨op, outcome, hop, hconn⟩

/-- **One breaker for each spelling.** Two spellings of a platform share a breaker exactly if they are the
same string; and in every run whose proposals spell the platform of a connection one way, no write over the
connection follows a threshold of failures before a cooldown has passed by the difference of the readings as
floats, nor by the exact difference if none is rounded up to the cooldown. -/
theorem one_breaker_iff_one_spelling (cfg : Config) :
    (∀ tenant p q platform, Vault.normalizePlatform (.str p) = .ok platform →
      Vault.normalizePlatform (.str q) = .ok platform → (SameBreaker tenant p q ↔ p = q)) ∧
    (∀ calls, OneSpelling calls → ∀ conn, Guarded cfg Binary64.sub conn calls) ∧
    ∀ calls, OneSpelling calls → UnroundedReadings cfg calls → ∀ conn, Guarded cfg (· - ·) conn calls := by
  refine ⟨fun tenant p q _ _ _ => sameBreaker_iff tenant p q, ?_, ?_⟩
  · intro calls hone conn
    exact guarded_of_oneSpelling hone (fun key => history_waits cfg key calls) conn
  · intro calls hone hunrounded conn
    refine guarded_of_oneSpelling hone (fun key => ?_) conn
    exact (history_waits cfg key calls).exactly (history_readings cfg key calls) hunrounded

theorem oneSpelling_orderRun : OneSpelling orderRun := by
  have hproposal : ∀ c ∈ orderRun, ∀ r, Requests c.2 r → c.2 = orderProposal 10 := by
    intro c hc r hr
    simp only [orderRun, List.mem_cons, List.not_mem_nil, or_false] at hc
    rcases hc with rfl | rfl | rfl
    · rfl
    · exact absurd hr.1 (by decide)
    · exact absurd hr.1 (by decide)
  intro c hc c' hc' r r' platform hr hr' _ _ _
  have hreq := hr.2
  have hreq' := hr'.2
  rw [hproposal c hc r hr] at hreq
  rw [hproposal c' hc' r' hr'] at hreq'
  rw [Except.ok.inj (hreq.symm.trans hreq')]

theorem unroundedReadings_orderRun : UnroundedReadings orderConfig orderRun := by
  have hreading : ∀ c ∈ orderRun, c.1.breakerClock = ⟨0, 0, 0⟩ := by
    intro c hc
    simp only [orderRun, List.mem_cons, List.not_mem_nil, or_false] at hc
    rcases hc with rfl | rfl | rfl
    · rfl
    · rfl
    · rfl
  intro c hc c' hc' h
  rw [hreading c hc, hreading c' hc'] at h ⊢
  have hzero : Binary64.sub 0 0 = 0 := by
    unfold Binary64.sub
    rw [sub_zero]
    exact (show Binary64.IsDouble 0 from ⟨0, 0, by norm_num, by omega, by omega, by norm_num⟩).nearest_eq_self
  rw [hzero] at h
  rw [sub_zero]
  exact h

/-- The condition of `one_breaker_iff_one_spelling` holds for the run of the order. -/
theorem one_spelling_orderRun :
    (SameBreaker "acme" "netsuite" "ns" ↔ "netsuite" = "ns") ∧
      Guarded orderConfig (· - ·) ("acme", "netsuite") orderRun :=
  ⟨(one_breaker_iff_one_spelling orderConfig).1 "acme" "netsuite" "ns" "netsuite" (by decide) (by decide),
    (one_breaker_iff_one_spelling orderConfig).2.2 orderRun oneSpelling_orderRun unroundedReadings_orderRun
      ("acme", "netsuite")⟩

/-! ## Two spellings -/

/-- The order again, for another spelling of the platform. -/
def respelledProposal : Event :=
  { orderProposal 10 with
    id := "00000000-0000-0000-0000-00000000000c"
    payload := .obj
      [("tenant_id", "acme"), ("erp_platform", " NS "), ("operation", "create"),
        ("target_module", "SalesOrder"), ("payload", .obj [("total", .int 10)]),
        ("requested_by", "ana")] }

/-- The ERP is down: the approval of one order fails five times, and then that of the other. -/
def respelledRun : List (Env × Event) :=
  [(orderEnv "0" "w-1" down, orderProposal 10), (orderEnv "1" "w-2" down, respelledProposal),
    (orderEnv "2" "w-3" down, approval "w-1"), (orderEnv "3" "w-4" down, approval "w-1"),
    (orderEnv "4" "w-5" down, approval "w-1"), (orderEnv "5" "w-6" down, approval "w-1"),
    (orderEnv "6" "w-7" down, approval "w-1"), (orderEnv "7" "w-8" down, approval "w-2")]

/-- The agent of that run, with the SHA-256 of the four entries it adds to the log. -/
def respelledConfig : Config where
  __ := orderConfig
  rt := .repository "schema_registry/schemas" (fun _ _ => "") fun m =>
    if m.length = 527 then "4c7b715394fe138496fff0a07118384ef0c8127104fdb43ecf9dd0f7652f4306"
    else if m.length = 523 then "9fd3e9dd86b17d8448da7134e5b80a3199eba61358605c58052b5e571fd10baa"
    else if m.length = 381 then "3cd3da1d6bcf67f41ef590e2b67534a1f6ef78c0d137235b02a85b875fb6d3a0"
    else "90b348d7f3a56e226c656ae445c1115ffd004c8c9dacaf38c4244f716ee7062e"

theorem respelledRun_attempts :
    (historyOver respelledConfig ("acme", "netsuite") respelledRun).map
        (fun a => (a.failed, a.started, a.failedAt)) =
      [(true, 0, 0), (true, 0, 0), (true, 0, 0), (true, 0, 0), (true, 0, 0), (true, 0, 0)] := by
  decide +kernel

/-- After five failures at once, the sixth write over the connection, for the other spelling, reaches the writer
without a cooldown. -/
theorem respelled_unguarded :
    Vault.normalizePlatform "netsuite" = .ok "netsuite" ∧ Vault.normalizePlatform " NS " = .ok "netsuite" ∧
      ¬ SameBreaker "acme" "netsuite" " NS " ∧
      ¬ Guarded respelledConfig (· - ·) ("acme", "netsuite") respelledRun := by
  refine ⟨by decide, by decide, mt (sameBreaker_iff _ _ _).mp (by decide), ?_⟩
  intro h
  refine not_waits rfl respelledRun_attempts ?_ h.cooled
  show (0 : ℚ) - 0 < 300
  norm_num

end ForgeWriteAgent

end CaviErp

import CaviErp.Base.Proofs.AgentProofs
import CaviErp.Beacon.Report

/-!
# Whose outcomes a report tells of

A report tells of everything since the last report, whoever was concerned and whoever asked. That is what
its tenant is to be told where no other tenant is heard of in between.
-/

namespace CaviErp

open Py

/-! ## Key figures -/

/-- The keys of a counter are different keys of a dictionary. -/
def DistinctKeys (counts : List (Json × Nat)) : Prop := (counts.map fun p => p.1.dictKey).Nodup

/-- The entry of the key, one higher. -/
def bump (k : Json) (p : Json × Nat) : Json × Nat :=
  if p.1.dictKey == some k then (p.1, p.2 + 1) else p

theorem bump_of_eq {k : Json} {p : Json × Nat} (h : p.1.dictKey = some k) : bump k p = (p.1, p.2 + 1) :=
  if_pos (beq_iff_eq.mpr h)

theorem bump_of_ne {k : Json} {p : Json × Nat} (h : p.1.dictKey ≠ some k) : bump k p = p :=
  if_neg fun heq => h (eq_of_beq heq)

theorem bump_fst (k : Json) (p : Json × Nat) : (bump k p).1 = p.1 := by
  by_cases h : p.1.dictKey = some k
  · rw [bump_of_eq h]
  · rw [bump_of_ne h]

theorem map_bump_of_not_mem {k : Json} {counts : List (Json × Nat)}
    (h : some k ∉ counts.map fun p => p.1.dictKey) : counts.map (bump k) = counts := by
  induction counts with
  | nil => rfl
  | cons p counts ih =>
    rw [List.map_cons, List.mem_cons, not_or] at h
    rw [List.map_cons, bump_of_ne (Ne.symm h.1), ih h.2]

theorem sum_bump {k : Json} {counts : List (Json × Nat)} (hkeys : DistinctKeys counts)
    (hk : some k ∈ counts.map fun p => p.1.dictKey) :
    ((counts.map (bump k)).map Prod.snd).sum = (counts.map Prod.snd).sum + 1 := by
  induction counts with
  | nil => cases hk
  | cons p counts ih =>
    obtain ⟨hnew, hkeys⟩ := List.nodup_cons.mp hkeys
    rw [List.map_cons, List.map_cons, List.map_cons, List.sum_cons, List.sum_cons]
    by_cases hp : p.1.dictKey = some k
    · rw [map_bump_of_not_mem (hp ▸ hnew), bump_of_eq hp]
      omega
    · rw [bump_of_ne hp, ih hkeys ((List.mem_cons.mp hk).resolve_left (Ne.symm hp))]
      omega

/-- An occurrence raises the sum by one. -/
theorem countOne_ok {counts counts' : List (Json × Nat)} {x : Json} (hkeys : DistinctKeys counts)
    (h : countOne counts x = .ok counts') :
    DistinctKeys counts' ∧ (counts'.map Prod.snd).sum = (counts.map Prod.snd).sum + 1 := by
  unfold countOne at h
  cases hx : x.dictKey with
  | none =>
    rw [hx] at h
    cases h
  | some k =>
    rw [hx] at h
    have hany : (counts.any fun p => p.1.dictKey == some k) = true ↔
        some k ∈ counts.map fun p => p.1.dictKey := by
      rw [List.any_eq_true, List.mem_map]
      simp only [beq_iff_eq]
    simp only at h
    by_cases hk : some k ∈ counts.map fun p => p.1.dictKey
    · rw [if_pos (hany.mpr hk)] at h
      obtain rfl := Except.ok.inj h
      refine ⟨?_, sum_bump hkeys hk⟩
      show ((counts.map (bump k)).map fun p => p.1.dictKey).Nodup
      have hsame : (counts.map (bump k)).map (fun p => p.1.dictKey) =
          counts.map fun p => p.1.dictKey := by
        rw [List.map_map]
        exact List.map_congr_left fun p _ => congrArg Json.dictKey (bump_fst k p)
      rw [hsame]
      exact hkeys
    · rw [if_neg (fun h => hk (hany.mp h))] at h
      obtain rfl := Except.ok.inj h
      refine ⟨?_, by simp⟩
      unfold DistinctKeys
      rw [List.map_append, List.map_singleton, hx]
      exact List.Nodup.append hkeys (List.nodup_singleton _) (List.disjoint_singleton.mpr hk)

theorem counter_sum {xs : List Json} {counts : List (Json × Nat)} (h : counter xs = .ok counts) :
    (counts.map Prod.snd).sum = xs.length := by
  have hfold : ∀ (xs : List Json) (acc : List (Json × Nat)), DistinctKeys acc →
      xs.foldlM countOne acc = .ok counts →
      (counts.map Prod.snd).sum = (acc.map Prod.snd).sum + xs.length := by
    intro xs
    induction xs with
    | nil =>
      intro acc _ hacc
      obtain rfl : acc = counts := Except.ok.inj hacc
      rfl
    | cons x xs ih =>
      intro acc hkeys hacc
      rw [List.foldlM_cons] at hacc
      obtain ⟨acc', hone, hrest⟩ := bind_eq_ok hacc
      obtain ⟨hkeys', hsum⟩ := countOne_ok hkeys hone
      rw [ih acc' hkeys' hrest, hsum, List.length_cons]
      omega
  have hsum := hfold xs [] List.nodup_nil h
  rw [hsum]
  simp

theorem asSubject_snd {counts : List (Json × Nat)} {named : List (String × Nat)}
    (h : counts.mapM asSubject = .ok named) : named.map Prod.snd = counts.map Prod.snd := by
  induction counts generalizing named with
  | nil =>
    obtain rfl : [] = named := Except.ok.inj h
    rfl
  | cons p counts ih =>
    rw [List.mapM_cons] at h
    obtain ⟨q, hq, h⟩ := bind_eq_ok h
    obtain ⟨qs, hqs, h⟩ := bind_eq_ok h
    obtain rfl := Except.ok.inj h
    have hsnd : q.2 = p.2 := by
      unfold asSubject at hq
      split at hq
      · obtain rfl := Except.ok.inj hq
        rfl
      · cases hq
    rw [List.map_cons, List.map_cons, ih hqs, hsnd]

/-- `events_total` is the number of events observed. -/
theorem events_total {xs : List Json} {kpis : Obj} (h : summarizeKpis xs = .ok kpis) :
    kpis.get "events_total" = .int xs.length := by
  unfold summarizeKpis at h
  obtain ⟨counts, hcounts, h⟩ := bind_eq_ok h
  obtain ⟨named, hnamed, h⟩ := bind_eq_ok h
  obtain rfl := Except.ok.inj h
  show countWhere (fun _ => true) named = .int xs.length
  unfold countWhere
  rw [List.filter_true, asSubject_snd hnamed, counter_sum hcounts]

namespace BeaconReportAgent

variable {cfg : Config}

/-! ## One call -/

theorem item_of_generateReport {generatedAt : String} {tenantId reportType : Json} {observed : List Json}
    {periodStart periodEnd targets : Json} {report : Obj}
    (h : generateReport generatedAt tenantId reportType observed periodStart periodEnd targets =
      .ok report) :
    item (.obj report) "tenant_id" = .ok tenantId ∧
      ∃ kpis, item (.obj report) "kpis" = .ok (.obj kpis) ∧ summarizeKpis observed = .ok kpis := by
  unfold generateReport at h
  obtain ⟨kpis, hkpis, h⟩ := bind_eq_ok h
  obtain ⟨xs, -, h⟩ := bind_eq_ok h
  obtain rfl := Except.ok.inj h
  exact ⟨rfl, kpis, rfl, hkpis⟩

theorem item_of_requestedReport {env : Env} {event : Event} {observed : List Json} {report : Obj}
    (h : requestedReport cfg env event observed = .ok report) :
    ∃ tenantId kpis, item (.obj report) "tenant_id" = .ok tenantId ∧
      item (.obj report) "kpis" = .ok (.obj kpis) ∧ summarizeKpis observed = .ok kpis := by
  unfold requestedReport at h
  obtain ⟨tenantId, -, h⟩ := bind_eq_ok h
  obtain ⟨reportType, -, h⟩ := bind_eq_ok h
  obtain ⟨periodStart, -, h⟩ := bind_eq_ok h
  obtain ⟨periodEnd, -, h⟩ := bind_eq_ok h
  obtain ⟨requested, -, h⟩ := bind_eq_ok h
  obtain ⟨htenant, kpis, hitem, hkpis⟩ := item_of_generateReport h
  exact ⟨tenantId, kpis, htenant, hitem, hkpis⟩

/-- A request emits a report over what was observed, after which nothing is; or it changes nothing that
is observed. -/
theorem answer_request (cfg : Config) (env : Env) {event : Event} (h : event.subject = reportRequest)
    (w : World) :
    ((answer cfg w (env, event)).1 = none ∧ (answer cfg w (env, event)).2.self = w.self) ∨
      ∃ report tenantId kpis, (answer cfg w (env, event)).1 = some report ∧
        (answer cfg w (env, event)).2.self = [] ∧ item report.payload "tenant_id" = .ok tenantId ∧
        item report.payload "kpis" = .ok (.obj kpis) ∧ summarizeKpis w.self = .ok kpis := by
  unfold answer handle emitReport
  simp only [if_pos h, Action.bind_apply, Action.ofExcept_apply, Action.read_apply]
  cases hreport : requestedReport cfg env event w.self with
  | error e => exact .inl ⟨rfl, rfl⟩
  | ok report =>
    obtain ⟨tenantId, kpis, htenant, hitem, hkpis⟩ := item_of_requestedReport hreport
    have hself := BaseAgent.emit_self cfg.rt env.infra (generated env event report)
      (generated env event report) w
    rcases BaseAgent.emit_cases cfg.rt env.infra (generated env event report)
      (generated env event report) w with ⟨e, he, -⟩ | ⟨-, -, ⟨e, he, -⟩ | he⟩
    · exact .inl (by simp [he])
    · exact .inl (by simp [he, World.recorded])
    · refine .inr ⟨generated env event report, tenantId, kpis, ?_, ?_, htenant, hitem, hkpis⟩
      · simp [he, World.recorded, World.published]
      · simp [he]

theorem answer_outcome {env : Env} {event : Event} (h : event.subject ≠ reportRequest) (w : World) :
    answer cfg w (env, event) = (none, { w with self := w.self ++ [event.subject] }) := by
  unfold answer handle
  simp [if_neg h]

/-! ## Runs -/

/-- What the agent has observed when the steps are behind it: the outcomes since the last report. -/
def observed (past : List Step) : List Json := subjectsOf ((sinceReport past).filter Step.isOutcome)

theorem sinceReport_snoc_none {past : List Step} {x : Step} (h : x.2 = none) :
    sinceReport (past ++ [x]) = sinceReport past ++ [x] :=
  List.rtakeWhile_concat_pos _ _ _ (by rw [h]; rfl)

theorem sinceReport_snoc_some {past : List Step} {x : Step} {report : Event} (h : x.2 = some report) :
    sinceReport (past ++ [x]) = [] :=
  List.rtakeWhile_concat_neg _ _ _ (by rw [h]; exact Bool.false_ne_true)

theorem observed_step (past : List Step) (w : World) (call : Env × Event)
    (h : w.self = observed past) :
    (answer cfg w call).2.self = observed (past ++ [(call, (answer cfg w call).1)]) := by
  obtain ⟨env, event⟩ := call
  by_cases hrequest : event.subject = reportRequest
  · have hnot : Step.isOutcome ((env, event), (answer cfg w (env, event)).1) = false := by
      simp [Step.isOutcome, hrequest]
    rcases answer_request cfg env hrequest w with ⟨hnone, hself⟩ |
      ⟨report, tenantId, kpis, hsome, hself, -⟩
    · unfold observed
      rw [hself, h, sinceReport_snoc_none hnone, List.filter_append,
        List.filter_cons_of_neg (by rw [hnot]; exact Bool.false_ne_true)]
      simp [observed]
    · unfold observed
      rw [hself, sinceReport_snoc_some hsome]
      rfl
  · have hout : Step.isOutcome ((env, event), (none : Option Event)) = true := by
      simp [Step.isOutcome, hrequest]
    rw [answer_outcome hrequest]
    unfold observed
    rw [sinceReport_snoc_none rfl, List.filter_append, List.filter_cons_of_pos hout, List.filter_nil]
    show w.self ++ [event.subject] = _
    rw [h]
    simp [observed, subjectsOf]

/-- **A report tells of all outcomes since the last one.** -/
theorem report_of_observed {calls : List (Env × Event)} {past rest : List Step} {x : Step}
    (hsplit : history cfg calls = past ++ x :: rest) {report : Event} (hreport : x.2 = some report) :
    ∃ tenantId kpis, item report.payload "tenant_id" = .ok tenantId ∧
      item report.payload "kpis" = .ok (.obj kpis) ∧ summarizeKpis (observed past) = .ok kpis := by
  obtain ⟨w, hw, hx⟩ := Unwinding.outputs_invariant (fun past w => w.self = observed past)
    (fun past w call h => observed_step past w call h) [] rfl hsplit
  rw [List.nil_append] at hw
  obtain ⟨⟨env, event⟩, emitted⟩ := x
  have hanswer : (answer cfg w (env, event)).1 = some report := hx.symm.trans hreport
  by_cases hrequest : event.subject = reportRequest
  · rcases answer_request cfg env hrequest w with ⟨hnone, -⟩ |
      ⟨report', tenantId, kpis, hsome, -, htenant, hitem, hkpis⟩
    · rw [hnone] at hanswer
      cases hanswer
    · rw [hsome] at hanswer
      obtain rfl := Option.some.inj hanswer
      exact ⟨tenantId, kpis, htenant, hitem, hw ▸ hkpis⟩
  · rw [answer_outcome hrequest] at hanswer
    cases hanswer

/-! ## Tenants -/

/-- What was handled since the last report is what comes last since the last report for the tenant. -/
theorem sinceReport_sinceReportFor (tenantId : Json) (past : List Step) :
    sinceReport (sinceReportFor tenantId past) = sinceReport past := by
  unfold sinceReport sinceReportFor List.rtakeWhile
  rw [List.reverse_reverse, List.takeWhile_takeWhile]
  congr 2
  funext x
  cases hx : x.2 with
  | none => simp [Step.reportsFor, hx]
  | some report => simp

/-- Where the tenant is undisturbed, the outcomes since the last report are its own since its own. -/
theorem outcomes_of_undisturbed {tenantId : Json} {past : List Step} (h : Undisturbed tenantId past) :
    (sinceReportFor tenantId past).filter (Step.isOutcomeOf tenantId) =
      (sinceReport past).filter Step.isOutcome := by
  obtain ⟨hown, hlost⟩ := h
  -- all since the tenant's report: first what a report for others has taken, then the rest
  have hparts : sinceReportFor tenantId past = takenSinceReportFor tenantId past ++ sinceReport past := by
    rw [← sinceReport_sinceReportFor tenantId past]
    exact List.rdropWhile_append_rtakeWhile.symm
  have htaken : (takenSinceReportFor tenantId past).filter (Step.isOutcomeOf tenantId) = [] := by
    rw [List.filter_eq_nil_iff]
    intro x hx
    rw [hlost x hx]
    exact Bool.false_ne_true
  rw [hparts, List.filter_append, htaken, List.nil_append]
  refine List.filter_congr fun x hx => ?_
  cases hout : x.isOutcome with
  | true => exact hown x hx hout
  | false =>
    unfold Step.isOutcomeOf
    rw [hout]
    rfl

/-- **Reports are scoped to their tenants where these are undisturbed.** In a run in which each report for
a tenant meets no outcome of other tenants since the last report, and no report for others has taken an
outcome of the tenant since the tenant's last report, every report tells of exactly its tenant's
outcomes since the tenant's last report. -/
theorem tenantScoped_of_undisturbed (cfg : Config) (calls : List (Env × Event))
    (h : ∀ past x rest, history cfg calls = past ++ x :: rest →
      ∀ tenantId, x.reportsFor tenantId = true → Undisturbed tenantId past) :
    TenantScoped cfg calls := by
  intro past x rest hsplit report hreport
  obtain ⟨tenantId, kpis, htenant, hkpis, hsummary⟩ := report_of_observed hsplit hreport
  refine ⟨tenantId, kpis, htenant, hkpis, ?_⟩
  have hfor : x.reportsFor tenantId = true := by
    unfold Step.reportsFor
    rw [hreport, Option.any_some, htenant, decide_eq_true_eq]
  rw [outcomes_of_undisturbed (h past x rest hsplit tenantId hfor)]
  exact hsummary

theorem report_of_reportsFor {tenantId : Json} {x : Step} (h : x.reportsFor tenantId = true) :
    ∃ report, x.2 = some report ∧ item report.payload "tenant_id" = .ok tenantId := by
  unfold Step.reportsFor at h
  cases hx : x.2 with
  | none =>
    rw [hx] at h
    cases h
  | some report =>
    rw [hx] at h
    exact ⟨report, rfl, of_decide_eq_true h⟩

def localConfig : Config where
  rt := .repository "schema_registry/schemas" (fun _ _ => "'tenant_id' is a required property") fun m => m
  defaultTargets := ["telegram:1370595013"]

def localEnv (uuid : String) : Env where
  generatedAt := "2026-07-05T00:05:00+00:00"
  uuid := uuid

/-- An entry of the tenant was posted. -/
def postedFor (tenantId : String) : Env × Event :=
  (localEnv "", {
    subject := "ledger.posted"
    schemaVersion := .int 1
    source := "ledger"
    id := "00000000-0000-0000-0000-000000000011"
    tenantId := .str tenantId
    payload := .obj [("entry_id", "e-1"), ("currency", "USD"), ("total_minor", .int 100),
      ("line_count", .int 2)] })

/-- The week of the tenant is asked for. -/
def weekFor (tenantId uuid : String) : Env × Event :=
  (localEnv uuid, {
    subject := reportRequest
    schemaVersion := .int 1
    source := "scheduler"
    id := "00000000-0000-0000-0000-000000000012"
    payload := .obj [("tenant_id", .str tenantId), ("report_type", "weekly_ops"),
      ("period_start", "2026-06-28T00:00:00+00:00"), ("period_end", "2026-07-05T00:00:00+00:00")] })

/-- Two tenants, one after the other. -/
def separateRun : List (Env × Event) :=
  [postedFor "acme", weekFor "acme" "r-1", postedFor "globex", weekFor "globex" "r-2"]

/-- The condition holds where the tenants are served one after the other. -/
theorem tenantScoped_separate : TenantScoped localConfig separateRun := by
  refine tenantScoped_of_undisturbed localConfig separateRun ?_
  intro past x rest hsplit tenantId hfor
  obtain ⟨report, hreport, hitem⟩ := report_of_reportsFor hfor
  have hall : ∀ n < (history localConfig separateRun).length,
      ∀ x ∈ (history localConfig separateRun)[n]?, ∀ report ∈ x.2,
        ∀ t ∈ (item report.payload "tenant_id").toOption,
          Undisturbed t ((history localConfig separateRun).take n) := by
    decide +kernel
  have hlen : past.length < (history localConfig separateRun).length := by
    rw [hsplit, List.length_append, List.length_cons]
    omega
  have hget : (history localConfig separateRun)[past.length]? = some x := by
    rw [hsplit]
    simp
  have hpast := hall past.length hlen x hget report hreport tenantId (by rw [hitem]; rfl)
  rwa [hsplit, List.take_left] at hpast

/-- Where reports are scoped to their tenants, each counts as many outcomes of others as it misses of
its own. -/
theorem totals_of_tenantScoped {calls : List (Env × Event)} (h : TenantScoped cfg calls)
    {past rest : List Step} {x : Step} (hsplit : history cfg calls = past ++ x :: rest)
    {tenantId : Json} (hfor : x.reportsFor tenantId = true) :
    ((sinceReport past).filter Step.isOutcome).length =
      ((sinceReportFor tenantId past).filter (Step.isOutcomeOf tenantId)).length := by
  obtain ⟨report, hreport, hitem⟩ := report_of_reportsFor hfor
  obtain ⟨t, kpis, ht, hkpis, hsummary⟩ := h past x rest hsplit report hreport
  obtain ⟨-, kpis', -, hkpis', hsummary'⟩ := report_of_observed hsplit hreport
  obtain rfl : tenantId = t := Except.ok.inj (hitem.symm.trans ht)
  obtain rfl : kpis = kpis' := Json.obj.inj (Except.ok.inj (hkpis.symm.trans hkpis'))
  have htotal := (events_total hsummary').symm.trans (events_total hsummary)
  have hlength : (observed past).length =
      (subjectsOf ((sinceReportFor tenantId past).filter (Step.isOutcomeOf tenantId))).length := by
    have hint := Json.int.inj htotal
    omega
  unfold observed subjectsOf at hlength
  rwa [List.length_map, List.length_map] at hlength

/-- One tenant's outcome is in the other's report, and not in its own. -/
theorem week_of_another :
    ¬ TenantScoped localConfig [postedFor "acme", weekFor "globex" "r-1", weekFor "acme" "r-2"] := by
  intro h
  let steps := history localConfig [postedFor "acme", weekFor "globex" "r-1", weekFor "acme" "r-2"]
  have hsplit : ∃ x rest, steps = steps.take 1 ++ x :: rest ∧ x.reportsFor "globex" = true :=
    ⟨_, _, rfl, by decide +kernel⟩
  obtain ⟨x, rest, hsplit, hfor⟩ := hsplit
  have htotals := totals_of_tenantScoped h hsplit hfor
  revert htotals
  decide +kernel

end BeaconReportAgent

end CaviErp

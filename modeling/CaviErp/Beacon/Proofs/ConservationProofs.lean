import CaviErp.Beacon.Proofs.ReportProofs
import CaviErp.Lib.Dict
import Mathlib.Algebra.BigOperators.Group.List.Basic
import Mathlib.Data.List.Dedup

/-!
# Every outcome is reported once

An outcome is tallied until a report takes the tally, and the report counts it in its total and in one of
its severities.
-/

namespace CaviErp

open Py

/-! ## Counting subjects -/

/-- The items of a counter, as it keeps them. -/
def asCounts (named : List (String × Nat)) : List (Json × Nat) := named.map fun p => (.str p.1, p.2)

/-- The number of events that the items stand for, of those whose subjects meet the condition. -/
def weight (p : String → Bool) (named : List (String × Nat)) : Nat :=
  ((named.filter fun c => p c.1).map Prod.snd).sum

theorem weight_cons (p : String → Bool) (c : String × Nat) (named : List (String × Nat)) :
    weight p (c :: named) = (if p c.1 then c.2 else 0) + weight p named := by
  unfold weight
  cases hp : p c.1 <;> simp [hp]

/-- One more event of a subject. -/
def tallyOne (named : List (String × Nat)) (s : String) : List (String × Nat) :=
  if s ∈ named.map Prod.fst then named.map fun c => if c.1 = s then (c.1, c.2 + 1) else c
  else named ++ [(s, 1)]

theorem countOne_asCounts (named : List (String × Nat)) (s : String) :
    countOne (asCounts named) (.str s) = .ok (asCounts (tallyOne named s)) := by
  have hkey : ∀ c : String × Nat, ((Json.str c.1).dictKey == some (Json.str s)) = decide (c.1 = s) := by
    intro c
    rw [Bool.eq_iff_iff, beq_iff_eq, decide_eq_true_iff]
    exact ⟨fun h => Json.str.inj (Option.some.inj h), fun h => by rw [h]; rfl⟩
  have hany : ((asCounts named).any fun p => p.1.dictKey == some (Json.str s)) =
      decide (s ∈ named.map Prod.fst) := by
    unfold asCounts
    rw [Bool.eq_iff_iff, decide_eq_true_iff, List.any_map, List.any_eq_true, List.mem_map]
    refine exists_congr fun c => and_congr_right fun _ => ?_
    rw [Function.comp_apply, hkey, decide_eq_true_iff]
  unfold countOne tallyOne
  show (if ((asCounts named).any fun p => p.1.dictKey == some (Json.str s)) = true then _ else _) = _
  rw [hany]
  by_cases hmem : s ∈ named.map Prod.fst
  · rw [if_pos (decide_eq_true hmem), if_pos hmem]
    unfold asCounts
    rw [List.map_map, List.map_map]
    refine congrArg Except.ok (List.map_congr_left fun c _ => ?_)
    simp only [Function.comp_apply, hkey, decide_eq_true_iff]
    by_cases hc : c.1 = s
    · rw [if_pos hc, if_pos hc]
    · rw [if_neg hc, if_neg hc]
  · rw [if_neg (by simpa using hmem), if_neg hmem]
    unfold asCounts
    rw [List.map_append]
    rfl

theorem map_bumpName_of_not_mem {named : List (String × Nat)} {s : String}
    (h : s ∉ named.map Prod.fst) :
    (named.map fun c => if c.1 = s then (c.1, c.2 + 1) else c) = named := by
  induction named with
  | nil => rfl
  | cons c named ih =>
    obtain ⟨hc, hrest⟩ := not_or.mp (mt List.mem_cons.mpr h)
    rw [List.map_cons, if_neg (Ne.symm hc), ih hrest]

theorem names_bumpName (named : List (String × Nat)) (s : String) :
    (named.map fun c => if c.1 = s then (c.1, c.2 + 1) else c).map Prod.fst = named.map Prod.fst := by
  rw [List.map_map]
  refine List.map_congr_left fun c _ => ?_
  rw [Function.comp_apply]
  by_cases hc : c.1 = s
  · rw [if_pos hc]
  · rw [if_neg hc]

/-- What a counter of the subjects holds. -/
structure Tallies (named : List (String × Nat)) (subjects : List String) : Prop where
  nodup : (named.map Prod.fst).Nodup
  names : ∀ s, s ∈ named.map Prod.fst ↔ s ∈ subjects
  weight_eq : ∀ p : String → Bool, weight p named = subjects.countP p

theorem Tallies.snoc {named : List (String × Nat)} {subjects : List String} (h : Tallies named subjects)
    (s : String) : Tallies (tallyOne named s) (subjects ++ [s]) := by
  unfold tallyOne
  by_cases hmem : s ∈ named.map Prod.fst
  · rw [if_pos hmem]
    refine ⟨?_, fun s' => ?_, fun p => ?_⟩
    · rw [names_bumpName]
      exact h.nodup
    · rw [names_bumpName, h.names, List.mem_append, List.mem_singleton, or_iff_left_of_imp]
      rintro rfl
      exact (h.names s').mp hmem
    · have hweight : ∀ named : List (String × Nat), (named.map Prod.fst).Nodup → s ∈ named.map Prod.fst →
          weight p (named.map fun c => if c.1 = s then (c.1, c.2 + 1) else c) =
            weight p named + if p s then 1 else 0 := by
        intro named hnodup hmem
        induction named with
        | nil => cases hmem
        | cons c named ih =>
          obtain ⟨hfresh, hnodup⟩ := List.nodup_cons.mp hnodup
          rw [List.map_cons, weight_cons, weight_cons]
          by_cases hc : c.1 = s
          · rw [if_pos hc, map_bumpName_of_not_mem (hc ▸ hfresh), hc]
            split <;> omega
          · rw [if_neg hc, ih hnodup ((List.mem_cons.mp hmem).resolve_left (Ne.symm hc))]
            omega
      rw [hweight named h.nodup hmem, h.weight_eq, List.countP_append, List.countP_singleton]
  · rw [if_neg hmem]
    refine ⟨?_, fun s' => ?_, fun p => ?_⟩
    · rw [List.map_append]
      exact List.Nodup.append h.nodup (List.nodup_singleton s) (List.disjoint_singleton.mpr hmem)
    · rw [List.map_append, List.mem_append, List.mem_append, h.names]
      rfl
    · have happend : weight p (named ++ [(s, 1)]) = weight p named + weight p [(s, 1)] := by
        unfold weight
        rw [List.filter_append, List.map_append, List.sum_append]
      rw [happend, h.weight_eq, weight_cons, List.countP_append, List.countP_singleton]
      rfl

/-- Subjects that are strings can be counted. -/
theorem counter_strings (subjects : List String) :
    ∃ named, counter (subjects.map Json.str) = .ok (asCounts named) ∧ Tallies named subjects := by
  induction subjects using List.reverseRecOn with
  | nil => exact ⟨[], rfl, List.nodup_nil, fun _ => Iff.rfl, fun _ => rfl⟩
  | append_singleton subjects s ih =>
    obtain ⟨named, hcounter, htallies⟩ := ih
    refine ⟨tallyOne named s, ?_, htallies.snoc s⟩
    unfold counter at hcounter ⊢
    rw [List.map_append, List.foldlM_append, hcounter]
    show (countOne (asCounts named) (.str s) >>= pure) = _
    rw [countOne_asCounts]
    rfl

theorem mapM_asSubject (named : List (String × Nat)) : (asCounts named).mapM asSubject = .ok named := by
  induction named with
  | nil => rfl
  | cons c named ih =>
    have hcons : asCounts (c :: named) = (.str c.1, c.2) :: asCounts named := rfl
    rw [hcons, List.mapM_cons, ih]
    rfl

/-! ## Key figures -/

/-- The key figures of the subjects. -/
def kpisOf (subjects : List String) : Obj :=
  [("events_total", .int subjects.length), ("distinct_subjects", .int subjects.dedup.length),
    ("dead_letters", .int (subjects.countP (startsWith · "deadletter.") : Nat)),
    ("by_severity", .obj (allSeverities.map fun severity =>
      (severity.name, .int (subjects.countP (severityFor · = severity) : Nat))))]

theorem summarizeKpis_strings (subjects : List String) :
    summarizeKpis (subjects.map Json.str) = .ok (kpisOf subjects) := by
  obtain ⟨named, hcounter, htallies⟩ := counter_strings subjects
  have hcount : ∀ p : String → Bool, countWhere p named = .int (subjects.countP p : Nat) := by
    intro p
    rw [← htallies.weight_eq p]
    rfl
  have htotal : subjects.countP (fun _ => true) = subjects.length :=
    congrFun List.countP_true subjects
  have hdistinct : named.length = subjects.dedup.length := by
    have hperm : (named.map Prod.fst).Perm subjects.dedup := by
      refine (List.perm_ext_iff_of_nodup htallies.nodup (List.nodup_dedup _)).mpr fun s => ?_
      rw [htallies.names, List.mem_dedup]
    rw [← hperm.length_eq, List.length_map]
  unfold summarizeKpis
  rw [hcounter]
  show ((asCounts named).mapM asSubject >>= fun counts => _) = _
  rw [mapM_asSubject]
  show Except.ok _ = _
  unfold kpisOf
  rw [hcount, hcount, htotal, hdistinct]
  simp only [hcount]

/-- The order of the events does not show. -/
theorem kpisOf_perm {subjects subjects' : List String} (h : subjects.Perm subjects') :
    kpisOf subjects = kpisOf subjects' := by
  unfold kpisOf
  rw [h.length_eq, h.dedup.length_eq, h.countP_eq]
  simp only [h.countP_eq]

/-- The dead letters are what is an error or critical. -/
theorem startsWith_deadletter (s : String) :
    startsWith s "deadletter." = true ↔ severityFor s = .error ∨ severityFor s = .critical := by
  unfold severityFor
  by_cases hdead : startsWith s "deadletter." = true
  · simp only [if_pos hdead]
    refine iff_of_true hdead ?_
    split
    · exact .inr rfl
    · exact .inl rfl
  · simp only [if_neg hdead]
    refine iff_of_false hdead ?_
    have hlookup : ∀ v, severities.lookup s = some v → v = .warning ∨ v = .info := by
      intro v hv
      have hmem := Dict.mem_of_lookup hv
      simp only [severities, List.mem_cons, Prod.mk.injEq, List.not_mem_nil, or_false] at hmem
      rcases hmem with ⟨-, rfl⟩ | ⟨-, rfl⟩ | ⟨-, rfl⟩ | ⟨-, rfl⟩ | ⟨-, rfl⟩ <;> simp
    cases hv : severities.lookup s with
    | none => simp
    | some v =>
      rcases hlookup v hv with rfl | rfl <;> simp

/-- Each event is of one severity. -/
theorem countP_severities (subjects : List String) :
    (allSeverities.map fun severity => subjects.countP (severityFor · = severity)).sum =
      subjects.length := by
  induction subjects with
  | nil => rfl
  | cons s subjects ih =>
    simp only [allSeverities, List.map_cons, List.map_nil, List.sum_cons, List.sum_nil,
      List.countP_cons, List.length_cons] at ih ⊢
    cases severityFor s <;> simp <;> omega

theorem countP_deadletters (subjects : List String) :
    subjects.countP (startsWith · "deadletter.") =
      subjects.countP (severityFor · = .error) + subjects.countP (severityFor · = .critical) := by
  induction subjects with
  | nil => rfl
  | cons s subjects ih =>
    have hdead := startsWith_deadletter s
    rw [List.countP_cons, List.countP_cons, List.countP_cons, ih]
    cases hs : severityFor s <;> simp [hs] at hdead ⊢ <;> simp [hdead] <;> omega

namespace BeaconReportAgent

/-! ## Runs -/

/-- The report says that it is about so many events. -/
def Totals (report : Event) (n : Nat) : Prop :=
  ∃ kpis : Obj, item report.payload "kpis" = .ok (.obj kpis) ∧ kpis.get "events_total" = .int n

/-- What is reported and what is tallied makes up the outcomes. -/
def Conserved (past : List Step) (w : World) : Prop :=
  ∃ totals, List.Forall₂ Totals (past.filterMap Prod.snd) totals ∧
    totals.sum + w.self.length = past.countP Step.isOutcome

variable {cfg : Config}

theorem conserved_step (past : List Step) (w : World) (call : Env × Event) (h : Conserved past w) :
    Conserved (past ++ [(call, (answer cfg w call).1)]) (answer cfg w call).2 := by
  obtain ⟨totals, htotals, hsum⟩ := h
  obtain ⟨env, event⟩ := call
  by_cases hrequest : event.subject = reportRequest
  · have hcount : ∀ emitted : Option Event,
        (past ++ [((env, event), emitted)]).countP Step.isOutcome = past.countP Step.isOutcome := by
      intro emitted
      rw [List.countP_append, List.countP_singleton]
      simp [Step.isOutcome, hrequest]
    rcases answer_request cfg env hrequest w with ⟨hnone, hself⟩ |
      ⟨report, tenantId, kpis, hsome, hself, -, hitem, hkpis⟩
    · refine ⟨totals, ?_, ?_⟩
      · rw [hnone, List.filterMap_append]
        simpa using htotals
      · rw [hself, hcount]
        exact hsum
    · refine ⟨totals ++ [w.self.length], ?_, ?_⟩
      · rw [hsome, List.filterMap_append]
        refine List.rel_append htotals (.cons ⟨kpis, hitem, events_total hkpis⟩ .nil)
      · rw [hself, hcount, ← hsum, List.sum_append]
        simp
  · rw [answer_outcome hrequest]
    refine ⟨totals, ?_, ?_⟩
    · rw [List.filterMap_append]
      simpa using htotals
    · have hone : Step.isOutcome ((env, event), (none : Option Event)) = true := by
        simp [Step.isOutcome, hrequest]
      rw [List.countP_append, List.countP_singleton, if_pos hone, ← hsum, List.length_append]
      exact (Nat.add_assoc ..).symm

/-- The outcomes of a run are those reported and those still tallied; and of any subjects the severities
make up the total, the errors and the critical ones the dead letters, in whichever order they came. -/
theorem report_conservation (cfg : Config) :
    (∀ calls : List (Env × Event), ∃ totals,
      List.Forall₂ Totals ((history cfg calls).filterMap Prod.snd) totals ∧
        totals.sum + (Unwinding.after (answer cfg) { self := [] } calls).self.length =
          calls.countP fun call => call.2.subject ≠ reportRequest) ∧
    ∀ subjects : List String, ∃ (kpis : Obj) (total dead : Nat) (buckets : Severity → Nat),
      summarizeKpis (subjects.map Json.str) = .ok kpis ∧
        kpis.get "events_total" = .int total ∧ kpis.get "dead_letters" = .int dead ∧
        kpis.get "by_severity" =
          .obj (allSeverities.map fun severity => (severity.name, .int (buckets severity))) ∧
        total = (allSeverities.map buckets).sum ∧ dead = buckets .error + buckets .critical ∧
        ∀ subjects' : List String, subjects.Perm subjects' →
          summarizeKpis (subjects'.map Json.str) = .ok kpis := by
  constructor
  · intro calls
    obtain ⟨totals, htotals, hsum⟩ : Conserved (history cfg calls) _ :=
      Unwinding.after_invariant Conserved conserved_step calls [] ⟨[], .nil, rfl⟩
    refine ⟨totals, htotals, hsum.trans ?_⟩
    conv_rhs => rw [← Unwinding.outputs_inputs (answer cfg) { self := [] } calls, List.countP_map]
    rfl
  · intro subjects
    refine ⟨kpisOf subjects, subjects.length, _, fun severity => subjects.countP (severityFor · = severity),
      summarizeKpis_strings subjects, rfl, rfl, rfl, (countP_severities subjects).symm,
      countP_deadletters subjects, fun subjects' hperm => ?_⟩
    rw [summarizeKpis_strings, kpisOf_perm hperm]

/-- Two reports of one outcome each, and nothing left over. -/
theorem report_conservation_separate :
    ((history localConfig separateRun).filterMap Prod.snd).length = 2 ∧
      (Unwinding.after (answer localConfig) { self := [] } separateRun).self = [] ∧
      ∃ totals, List.Forall₂ Totals ((history localConfig separateRun).filterMap Prod.snd) totals ∧
        totals.sum + (Unwinding.after (answer localConfig) { self := [] } separateRun).self.length =
          separateRun.countP fun call => call.2.subject ≠ reportRequest :=
  ⟨by decide +kernel, by decide +kernel, (report_conservation localConfig).1 separateRun⟩

end BeaconReportAgent

end CaviErp

import CaviErp.Beacon.Proofs.AgentProofs

/-!
# Dead letters are never escalated

A dead letter carries the subject of the event that was quarantined, and not that of its channel. So
Beacon takes it for the event itself: it quarantines it again where the event fails its contract, and
reports it as a routine fact where the event meets it.
-/

namespace CaviErp

open Py

/-! ## Severities -/

theorem startsWith_append (start rest : String) : startsWith (start ++ rest) start = true := by
  unfold startsWith
  rw [List.isPrefixOf_iff_prefix, String.toList_append]
  exact List.prefix_append _ _

theorem startsWith_of_error {subject : String}
    (h : Severity.error.value ≤ (severityFor subject).value) :
    startsWith subject "deadletter." = true := by
  by_contra hnot
  unfold severityFor at h
  rw [if_neg hnot] at h
  cases hl : severities.lookup subject with
  | none =>
    rw [hl] at h
    exact absurd h (by decide)
  | some severity =>
    rw [hl] at h
    obtain ⟨l₁, l₂, hlist, -⟩ := List.lookup_eq_some_iff.mp hl
    have hmem : (subject, severity) ∈ severities := by rw [hlist]; simp
    have hall : ∀ p ∈ severities, ¬ Severity.error.value ≤ p.2.value := by decide
    exact hall _ hmem h

theorem classify_ok {subject payload correlationId : Json} {alert : Alert}
    (h : classify subject payload correlationId = .ok alert) :
    ∃ s ident, subject = .str s ∧ alert.severity = severityFor s ∧ alert.dedupKey = s ++ ":" ++ ident := by
  cases subject with
  | str s =>
    cases payload with
    | obj o =>
      obtain rfl := Except.ok.inj h
      exact ⟨s, _, rfl, rfl, rfl⟩
    | _ => cases h
  | _ => cases h

/-- The key of an alert for an error starts with the name of the dead-letter channels. -/
theorem dedupKey_of_error {subject payload correlationId : Json} {alert : Alert}
    (h : classify subject payload correlationId = .ok alert)
    (herror : Severity.error.value ≤ alert.severity.value) :
    alert.dedupKey.toList.head? = some 'd' := by
  obtain ⟨s, ident, -, hseverity, hkey⟩ := classify_ok h
  rw [hseverity] at herror
  have hstart := startsWith_of_error herror
  unfold startsWith at hstart
  obtain ⟨rest, hrest⟩ := List.isPrefixOf_iff_prefix.mp hstart
  rw [hkey, String.toList_append, String.toList_append, ← hrest]
  rfl

namespace BeaconAgent

/-! ## The subjects whose dead letters Beacon hears -/

/-- The subjects of the dead-letter channels Beacon subscribes to. -/
def quarantined : List String :=
  (subjects.filter fun s => startsWith s "deadletter.").map fun s =>
    String.ofList (s.toList.drop "deadletter.".length)

theorem mem_quarantined {s : String} (h : "deadletter." ++ s ∈ subjects) : s ∈ quarantined := by
  refine List.mem_map.mpr ⟨"deadletter." ++ s, ?_, ?_⟩
  · exact List.mem_filter.mpr ⟨h, startsWith_append _ _⟩
  · rw [String.toList_append]
    show String.ofList (List.drop "deadletter.".toList.length ("deadletter.".toList ++ s.toList)) = s
    rw [List.drop_left, String.ofList_toList]

/-- Under its own subject each of these events is a routine fact, with a key that no error has. -/
theorem routine_of_quarantined :
    ∀ s ∈ quarantined, severityFor s = .info ∧ ∃ c cs, s.toList = c :: cs ∧ c ≠ 'd' ∧
      c ∉ nonStringHeads := by
  have hall : quarantined.all (fun s => severityFor s == .info && !s.toList.isEmpty &&
      s.toList.head?.all fun c => c != 'd' && !nonStringHeads.contains c) = true := rfl
  intro s hs
  have h := List.all_eq_true.mp hall s hs
  cases hc : s.toList with
  | nil => simp [hc] at h
  | cons c cs =>
    rw [hc] at h
    have h' : (severityFor s = .info ∧ c ≠ 'd') ∧ c ∉ nonStringHeads := by simpa [and_assoc] using h
    exact ⟨h'.1.1, c, cs, rfl, h'.1.2, h'.2⟩

/-- The subject of an event whose dead letters Beacon hears is one of these strings. -/
theorem subject_of_channel {event : Event} (h : "deadletter." ++ event.subject.pyStr ∈ subjects) :
    ∃ s ∈ quarantined, event.subject = .str s := by
  have hmem := mem_quarantined h
  obtain ⟨-, c, cs, hcs, -, hc⟩ := routine_of_quarantined _ hmem
  have hstr : ∃ s, event.subject = .str s := by
    by_contra hnot
    obtain ⟨c', cs', hcs', hc'⟩ := pyStr_head (j := event.subject) fun s hs => hnot ⟨s, hs⟩
    rw [hcs] at hcs'
    obtain ⟨rfl, -⟩ := List.cons.inj hcs'
    exact hc hc'
  obtain ⟨s, hs⟩ := hstr
  refine ⟨s, ?_, hs⟩
  rw [hs] at hmem
  exact hmem

/-! ## Escalation -/

variable {δ : Type} {cfg : Config δ}

theorem run_deadLetter (cfg : Config δ) (env : Env) (event : Event) (error : String) (w : World δ) :
    (run cfg [(env, .ofDict (BaseAgent.envelope event error))] w).2 =
      (BaseAgent.dispatch cfg.rt env.infra (handle cfg env) event.reread w).2 := by
  unfold run BaseAgent.run
  rw [Action.forEach_cons, BaseAgent.onMessage_of_decode cfg.rt env.infra rfl
    (BaseAgent.decode_envelope event error)]
  rcases BaseAgent.dispatch cfg.rt env.infra (handle cfg env) event.reread w with ⟨_ | _, w'⟩ <;> rfl

theorem not_escalated_of_trace {event : Event} {w w' : World δ} (h : w'.trace = w.trace) :
    ¬ Escalated event w w' := by
  rintro (⟨alert, channels, htrace, -⟩ | ⟨alert, htrace, -⟩)
  · rw [h] at htrace
    simp at htrace
  · rw [h] at htrace
    simp at htrace

/-- Beacon's report of an event under one of these subjects is no escalation. -/
theorem not_escalated_of_notify {event : Event} {s : String} (hs : s ∈ quarantined) (env : Env)
    (payload correlationId : Json) (w : World δ) :
    ¬ Escalated event w (notify cfg env (.str s) payload correlationId w).2 := by
  cases hclass : classify (.str s) payload correlationId with
  | error e =>
    rw [notify_of_unclassified hclass]
    exact not_escalated_of_trace rfl
  | ok alert =>
    obtain ⟨s', ident, hs', hseverity, hkey⟩ := classify_ok hclass
    obtain rfl := Json.str.inj hs'
    obtain ⟨hinfo, c, cs, hcs, hc, -⟩ := routine_of_quarantined s hs
    have htrace : (notify cfg env (.str s) payload correlationId w).2.trace =
          w.trace ++ [.alerted alert (cfg.beacon.targets alert.severity)] ∨
        (notify cfg env (.str s) payload correlationId w).2.trace = w.trace ++ [.suppressed alert] :=
      (notify_of_classify hclass w).2.2
    rintro (⟨alert', channels, htrace', hrequired, -⟩ |
      ⟨alert', htrace', _, _, _, a, ha, hsame, hrequired, -⟩)
    · -- the alert that was dispatched is a routine fact
      rcases htrace with htrace | htrace
      · rw [htrace] at htrace'
        obtain ⟨rfl, -⟩ : alert = alert' ∧ _ := by simpa using htrace'
        rw [hseverity, hinfo] at hrequired
        exact absurd hrequired (by decide)
      · rw [htrace] at htrace'
        simp at htrace'
    · -- no error has the key of the alert that was suppressed
      rcases htrace with htrace | htrace
      · rw [htrace] at htrace'
        simp at htrace'
      · rw [htrace] at htrace'
        obtain rfl : alert = alert' := by simpa using htrace'
        have hhead := dedupKey_of_error ha hrequired
        rw [hsame, hkey, String.toList_append, String.toList_append, hcs] at hhead
        exact hc (by simpa using hhead)

/-- Whatever event is quarantined on a channel Beacon subscribes to, for whatever reason, and whatever
state Beacon is in: the dead letter is not escalated. -/
theorem deadLetter_never_escalated (cfg : Config δ) (env : Env) (w : World δ) (event : Event)
    (error : String) (h : "deadletter." ++ event.subject.pyStr ∈ subjects) :
    ¬ Escalated event w (run cfg [(env, .ofDict (BaseAgent.envelope event error))] w).2 := by
  obtain ⟨s, hs, hsub⟩ := subject_of_channel h
  have hread : event.reread.subject = .str s := by
    rw [Event.reread, hsub]
    rfl
  rw [run_deadLetter]
  cases hv : cfg.rt.registry.validate event.reread.subject event.reread.schemaVersion
      event.reread.payload with
  | error e =>
    rw [BaseAgent.dispatch_of_invalid cfg.rt env.infra hv]
    exact not_escalated_of_trace (BaseAgent.deadLetter_trace ..)
  | ok u =>
    rw [BaseAgent.dispatch_of_valid cfg.rt env.infra hv]
    unfold handle
    rw [hread]
    exact not_escalated_of_notify hs env _ _ w

def reconciliationDue : Event where
  subject := "ticker.reconciliation.due"
  schemaVersion := .int 1
  source := "ticker"
  id := "00000000-0000-0000-0000-00000000000e"
  payload := .obj
    [("tenant_id", "acme"), ("erp_platform", "netsuite"), ("scope", "orders"),
      ("due_at", "2026-01-01T00:00:00+00:00")]

def reconciliationAlert : Alert where
  severity := .info
  title := "INFO: ticker.reconciliation.due"
  subject := "ticker.reconciliation.due"
  body := "\x7b\"tenant_id\": \"acme\", \"erp_platform\": \"netsuite\", \"scope\": \"orders\", " ++
    "\"due_at\": \"2026-01-01T00:00:00+00:00\"\x7d"
  dedupKey := "ticker.reconciliation.due:"

/-- The hypothesis of `deadLetter_never_escalated` holds for a reconciliation whose sources are
unavailable: it is reported as a routine fact, to the log only. -/
theorem deadLetter_never_escalated_reconciliation :
    let w := (run localConfig [({ now := 0 }, .ofDict (BaseAgent.envelope reconciliationDue
      "reconciliation source unavailable: down"))] localWorld).2
    w.trace = [.alerted reconciliationAlert ["log"]] ∧ ¬ Escalated reconciliationDue localWorld w := by
  refine ⟨?_, deadLetter_never_escalated localConfig { now := 0 } localWorld reconciliationDue _
    (by decide +kernel)⟩
  rw [run_deadLetter]
  decide +kernel

/-- An approval whose write failed once too often. -/
def trippedDecision : Event where
  subject := "forge.write.decision"
  schemaVersion := .int 1
  source := "console"
  id := "00000000-0000-0000-0000-00000000000f"
  payload := .obj [("write_id", "w-1"), ("decision", "approve"), ("reviewer", "bo")]

/-- The circuit breaker opens, and nobody is alerted. -/
theorem trippedDecision_unalerted :
    let w := (run localConfig [({ now := 0 }, .ofDict (BaseAgent.envelope trippedDecision
      "circuit breaker opened; last error: down"))] localWorld).2
    "deadletter." ++ trippedDecision.subject.pyStr ∈ subjects ∧ w.trace = [] ∧
      ¬ Escalated trippedDecision localWorld w := by
  rw [run_deadLetter]
  have htrace : (BaseAgent.dispatch localConfig.rt .healthy (handle localConfig { now := 0 })
      trippedDecision.reread localWorld).2.trace = [] := by decide +kernel
  exact ⟨by decide +kernel, htrace, not_escalated_of_trace htrace⟩

end BeaconAgent

end CaviErp

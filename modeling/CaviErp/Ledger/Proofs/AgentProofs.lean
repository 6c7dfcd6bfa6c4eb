import CaviErp.Base.Proofs.AgentProofs
import CaviErp.Ledger.Agent
import CaviErp.Ledger.Proofs.DoubleEntryProofs
import Mathlib.Algebra.Order.BigOperators.Group.List

/-!
# One delivery to the ledger agent

A payload that meets the contract of `ledger.entry` decodes to an entry, and what the agent emits about
that entry meets its own contract. So with a working event store the outcome of a delivery depends on
the tenant, the balance and the ledger store only.
-/

namespace CaviErp

open Py Schema

/-! ## Decoding a valid payload -/

/-- The lines of a payload, as `from_payload` reads them. -/
def payloadLines (payload : Json) : Except PyError (List JournalLine) :=
  item payload "lines" >>= elements >>= List.mapM JournalLine.fromJson

theorem valid_oneOf {names : List String} {j : Json} (h : (oneOf names).valid j = true) :
    ∃ s ∈ names, j = .str s := by
  have hmem : j ∈ names.map Json.str := by
    simpa [Keywords.admits] using admits_of_valid h
  obtain ⟨s, hs, rfl⟩ := List.mem_map.mp hmem
  exact ⟨s, hs, rfl⟩

theorem valid_currency_iff {j : Json} :
    currency.valid j = true ↔ ∃ s, j = .str s ∧ currencyPattern s = true := by
  cases j with
  | str s => simp [currency, Schema.valid, Keywords.admits, JType.admits, Keywords.stringOk]
  | _ => simp [currency, Schema.valid, Keywords.admits, JType.admits]

theorem fromJson_of_valid {j : Json} (h : journalLineSchema.valid j = true) :
    ∃ ln, JournalLine.fromJson j = .ok ln ∧ 1 ≤ ln.amountMinor := by
  obtain ⟨o, rfl, -⟩ := (valid_record_iff ..).mp h
  obtain ⟨a, ha, hav⟩ := valid_record_field h (k := "account") (s := text 0) (by simp) (by simp)
  obtain ⟨d, hd, hdv⟩ := valid_record_field h (k := "direction") (s := oneOf ["debit", "credit"])
    (by simp) (by simp)
  obtain ⟨m, hm, hmv⟩ := valid_record_field h (k := "amount_minor") (s := atLeast 1)
    (by simp) (by simp)
  obtain ⟨account, rfl, -⟩ := (valid_text_iff 0 a).mp hav
  obtain ⟨n, hn, hle⟩ := toInt_of_valid_atLeast hmv
  have hdir : ∃ dir, Direction.ofJson d = .ok dir := by
    obtain ⟨s, hs, rfl⟩ := valid_oneOf hdv
    rcases List.mem_cons.mp hs with rfl | hs
    · exact ⟨.debit, rfl⟩
    · obtain rfl : s = "credit" := by simpa using hs
      exact ⟨.credit, rfl⟩
  obtain ⟨dir, hdir⟩ := hdir
  refine ⟨{ account := account, direction := dir, amountMinor := n }, ?_, hle⟩
  simp [JournalLine.fromJson, item_of_get? ha, item_of_get? hd, item_of_get? hm, asStr, hdir, asInt,
    hn, bind, Except.bind, pure, Except.pure]

theorem mapM_fromJson_of_valid {xs : List Json} (h : ∀ x ∈ xs, journalLineSchema.valid x = true) :
    ∃ lines, xs.mapM JournalLine.fromJson = .ok lines ∧ lines.length = xs.length ∧
      ∀ ln ∈ lines, 1 ≤ ln.amountMinor := by
  induction xs with
  | nil => exact ⟨[], rfl, rfl, by simp⟩
  | cons x xs ih =>
    obtain ⟨ln, hln, hpos⟩ := fromJson_of_valid (h x List.mem_cons_self)
    obtain ⟨lines, hlines, hlen, hall⟩ := ih fun y hy => h y (List.mem_cons_of_mem x hy)
    refine ⟨ln :: lines, ?_, by simp [hlen], ?_⟩
    · rw [List.mapM_cons, hln, hlines]
      rfl
    · intro y hy
      rcases List.mem_cons.mp hy with rfl | hy
      · exact hpos
      · exact hall y hy

/-- What the two contracts of `ledger.entry` have in common. -/
structure EntryPayload (payload : Json) (entryId currency : String) (lines : List JournalLine)
    (memo : Option String) : Prop where
  entryId_eq : item payload "entry_id" = .ok (.str entryId)
  currency_eq : item payload "currency" = .ok (.str currency)
  currency_ok : currencyPattern currency = true
  lines_eq : payloadLines payload = .ok lines
  two_lines : 2 ≤ lines.length
  positive : ∀ ln ∈ lines, 1 ≤ ln.amountMinor
  memo_eq : getItem? payload "memo" = .ok (memo.map Json.str)

theorem entryPayload_of_fields {required : List String} {props : List (String × Schema)} {o : Obj}
    {memo : Option String} (h : (record required props).valid (.obj o) = true)
    (hid : "entry_id" ∈ required ∧ ("entry_id", text 0) ∈ props)
    (hcur : "currency" ∈ required ∧ ("currency", CaviErp.currency) ∈ props)
    (hlines : "lines" ∈ required ∧ ("lines", listOf 2 journalLineSchema) ∈ props)
    (hmemo : o.get? "memo" = memo.map Json.str) :
    ∃ entryId currency lines, EntryPayload (.obj o) entryId currency lines memo := by
  obtain ⟨i, hi, hiv⟩ := valid_record_field h hid.1 hid.2
  obtain ⟨c, hc, hcv⟩ := valid_record_field h hcur.1 hcur.2
  obtain ⟨l, hl, hlv⟩ := valid_record_field h hlines.1 hlines.2
  obtain ⟨entryId, rfl, -⟩ := (valid_text_iff 0 i).mp hiv
  obtain ⟨currency, rfl, hpat⟩ := valid_currency_iff.mp hcv
  obtain ⟨xs, rfl, hlen, hall⟩ := (valid_list_iff ..).mp hlv
  obtain ⟨lines, hmap, hlen', hpos⟩ := mapM_fromJson_of_valid hall
  refine ⟨entryId, currency, lines, ⟨item_of_get? hi, item_of_get? hc, hpat, ?_, ?_, hpos, ?_⟩⟩
  · rw [payloadLines, item_of_get? hl]
    exact hmap
  · omega
  · rw [getItem?, hmemo]

/-- A payload that meets a contract of `ledger.entry`, in either version, is that of an entry. -/
theorem entryPayload_of_valid {payload : Json}
    (h : ledgerEntryV1.valid payload = true ∨ ledgerEntryV2.valid payload = true) :
    ∃ entryId currency lines memo, EntryPayload payload entryId currency lines memo := by
  rcases h with h | h
  · obtain ⟨o, rfl, -, -, hprops⟩ := (valid_record_iff ..).mp h
    -- the memo is optional, and a string where it is there
    have hmemo : ∃ memo : Option String, o.get? "memo" = memo.map Json.str := by
      cases hm : o.get? "memo" with
      | none => exact ⟨none, rfl⟩
      | some m =>
        have hv := hprops "memo" (mk { types := [.string], maxLength := some 280 } [] none) m
          (by simp) hm
        cases m with
        | str s => exact ⟨some s, rfl⟩
        | _ => simp [Schema.valid, Keywords.admits, JType.admits] at hv
    obtain ⟨memo, hmemo⟩ := hmemo
    obtain ⟨i, c, l, he⟩ := entryPayload_of_fields h (by simp) (by simp) (by simp) hmemo
    exact ⟨i, c, l, memo, he⟩
  · obtain ⟨o, rfl, -, hclosed, -⟩ := (valid_record_iff ..).mp h
    -- the second version has no memo
    have hmemo : o.get? "memo" = (none : Option String).map Json.str := by
      refine List.lookup_eq_none_iff.mpr ?_
      intro p hp
      have hk := hclosed p.1 (List.mem_map_of_mem hp)
      simp only [bne_iff_ne, ne_eq]
      intro heq
      rw [← heq] at hk
      simp at hk
    obtain ⟨i, c, l, he⟩ := entryPayload_of_fields h (by simp) (by simp) (by simp) hmemo
    exact ⟨i, c, l, none, he⟩

theorem EntryPayload.fromPayload_eq {payload : Json} {entryId currency : String}
    {lines : List JournalLine} {memo : Option String}
    (h : EntryPayload payload entryId currency lines memo) {tenantId : String} (ht : tenantId ≠ "") :
    JournalEntry.fromPayload payload tenantId =
      .ok { entryId, tenantId, currency, lines, memo } := by
  have hl : (item payload "lines" >>= elements >>= List.mapM JournalLine.fromJson) = .ok lines :=
    h.lines_eq
  unfold JournalEntry.fromPayload
  rw [if_neg ht, hl]
  cases memo with
  | none => simp [h.entryId_eq, h.currency_eq, h.memo_eq, asStr, asOptStr, bind, Except.bind, pure,
      Except.pure]
  | some m => simp [h.entryId_eq, h.currency_eq, h.memo_eq, asStr, asOptStr, bind, Except.bind, pure,
      Except.pure]

theorem entryId_of_fromPayload {payload : Json} {tenantId : String} {entry : JournalEntry}
    (h : JournalEntry.fromPayload payload tenantId = .ok entry) :
    item payload "entry_id" = .ok (.str entry.entryId) := by
  unfold JournalEntry.fromPayload at h
  split at h
  · cases h
  · obtain ⟨lines, -, h⟩ := bind_eq_ok h
    obtain ⟨entryId, hid, h⟩ := bind_eq_ok h
    obtain ⟨currency, -, h⟩ := bind_eq_ok h
    obtain ⟨memo, -, h⟩ := bind_eq_ok h
    obtain rfl := Except.ok.inj h
    obtain ⟨j, hj, hstr⟩ := bind_eq_ok hid
    rw [hj]
    cases j with
    | str s =>
      obtain rfl := Except.ok.inj hstr
      rfl
    | _ => cases hstr

/-- The contract of `ledger.entry`, in whichever version the event names. -/
theorem valid_of_validate_entry {dir : String} {complaint : Schema → Json → String}
    {version payload : Json}
    (h : (SchemaRegistry.repository dir complaint).validate "ledger.entry" version payload = .ok ()) :
    ledgerEntryV1.valid payload = true ∨ ledgerEntryV2.valid payload = true := by
  obtain ⟨s, hs, hv⟩ := (SchemaRegistry.validate_ok_iff _).mp h
  have hkey : SchemaRegistry.key "ledger.entry" version = "ledger.entry.v" ++ version.pyStr := by
    have happ : ("ledger.entry" ++ ".v" : String) = "ledger.entry.v" := rfl
    rw [← happ]
    rfl
  rw [hkey] at hs
  have hs' : schemaFiles.lookup ("ledger.entry.v" ++ version.pyStr) = some s := hs
  have hnames : contractsNamed "ledger.entry.v" = ["ledger.entry.v1", "ledger.entry.v2"] := rfl
  have hmem := mem_contractsNamed hs'
  rw [hnames] at hmem
  rcases List.mem_cons.mp hmem with h1 | h2
  · rw [h1] at hs'
    obtain rfl : ledgerEntryV1 = s := Option.some.inj hs'
    exact .inl hv
  · rw [List.mem_singleton.mp h2] at hs'
    obtain rfl : ledgerEntryV2 = s := Option.some.inj hs'
    exact .inr hv

/-! ## What the agent emits -/

theorem sideTotal_nonneg {d : Direction} {lines : List JournalLine}
    (h : ∀ ln ∈ lines, 1 ≤ ln.amountMinor) : 0 ≤ sideTotal d lines := by
  refine List.sum_nonneg ?_
  intro x hx
  obtain ⟨ln, hln, rfl⟩ := List.mem_map.mp hx
  have := h ln (List.mem_filter.mp hln).1
  omega

namespace LedgerAgent

variable {dir : String} {complaint : Schema → Json → String} {env : Env} {event : Event}
  {entry : JournalEntry}

/-- The rejection of an entry with positive amounts meets the contract of `ledger.rejected`. -/
theorem validate_rejected {reason : String} (hcur : currencyPattern entry.currency = true)
    (hpos : ∀ ln ∈ entry.lines, 1 ≤ ln.amountMinor) (hreason : 1 ≤ reason.length) :
    (SchemaRegistry.repository dir complaint).validate (rejected env event entry reason).subject
      (rejected env event entry reason).schemaVersion
      (rejected env event entry reason).payload = .ok () := by
  have hd : 0 ≤ entry.totalDebits := sideTotal_nonneg hpos
  have hc : 0 ≤ entry.totalCredits := sideTotal_nonneg hpos
  have hfile : schemaFiles.lookup (SchemaRegistry.key "ledger.rejected" (.int 1)) =
      some ledgerRejectedV1 := rfl
  refine (validate_repository_iff hfile).mpr ?_
  refine (valid_strictRecord_iff rfl (by decide)).mpr ?_
  simp only [List.forall₂_cons, List.Forall₂.nil, valid_text_str, Nat.zero_le, valid_atLeast_int]
  exact ⟨trivial, valid_currency_iff.mpr ⟨_, rfl, hcur⟩, hreason, hd, hc, trivial⟩

/-- The result of posting a balanced entry of two lines meets the contract of `ledger.posted`. -/
theorem validate_posted {status : PostStatus} (hcur : currencyPattern entry.currency = true)
    (hbal : entry.isBalanced = true) (hlen : 2 ≤ entry.lines.length) :
    (SchemaRegistry.repository dir complaint).validate (posted env event (postResult entry status)).subject
      (posted env event (postResult entry status)).schemaVersion
      (posted env event (postResult entry status)).payload = .ok () := by
  have htotal : 1 ≤ entry.totalDebits := ((isBalanced_iff entry).mp hbal).2
  have hlen' : (2 : Int) ≤ (entry.lines.length : Int) := by exact_mod_cast hlen
  have hfile : schemaFiles.lookup (SchemaRegistry.key "ledger.posted" (.int 1)) = some ledgerPostedV1 := rfl
  refine (validate_repository_iff hfile).mpr ?_
  refine (valid_strictRecord_iff rfl (by decide)).mpr ?_
  simp only [List.forall₂_cons, List.Forall₂.nil, valid_text_str, Nat.zero_le, valid_atLeast_int]
  exact ⟨trivial, valid_currency_iff.mpr ⟨_, rfl, hcur⟩, htotal, hlen', trivial⟩

/-! ## One call of `handle` -/

variable {σ : Type} (rt : Runtime) (store : LedgerStore σ) (env : Env)

theorem handle_of_no_tenant (h : event.tenantId.truthy = false) (w : World σ) :
    (handle rt store env event w).2 = w := by
  simp only [handle, h, Bool.not_false, if_true, Action.bind_apply, Action.ofExcept_apply]
  cases getItem? event.payload "entry_id" <;> rfl

/-- An event of a tenant whose payload decodes is a post, and the outcome of the post decides. -/
theorem handle_of_entry {tenantId : String} (ht : event.tenantId = .str tenantId)
    (he : JournalEntry.fromPayload event.payload tenantId = .ok entry) (w : World σ) :
    handle rt store env event w =
      (match (Ledger.post store entry w.self).1 with
        | .error (.unbalancedEntry reason) => emit rt env (rejected env event entry reason)
        | .error e => Action.raise e
        | .ok result =>
          match result.status with
          | .duplicate => pure ()
          | .posted => emit rt env (posted env event result))
        { w with self := (Ledger.post store entry w.self).2 } := by
  have hne : tenantId ≠ "" := by
    rintro rfl
    simp [JournalEntry.fromPayload] at he
  have htruthy : event.tenantId.truthy = true := by simpa [ht, Json.truthy] using hne
  have hstr : asStr event.tenantId = .ok tenantId := by rw [ht]; rfl
  unfold handle
  simp only [htruthy, Bool.not_true, Bool.false_eq_true, if_false, Action.bind_apply, hstr,
    Action.ofExcept_apply, he]
  rewrite [Action.attempt_apply, onSelf_apply]
  rfl

end LedgerAgent

end CaviErp

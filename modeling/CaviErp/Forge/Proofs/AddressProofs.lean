import CaviErp.Forge.Address
import CaviErp.Lib.Proofs.SchemaProofs

/-!
# The record behind a write

`apply` sends every PUT to the record of `erp_address`. That is the record the write names, except for an
update whose target is the empty string: `apply` takes it for a target, `erp_address` does not.
-/

namespace CaviErp

open Py

namespace WriteOperation

theorem erpAddress_of_truthy {op : WriteOperation} (h : op.targetExternalId.truthy = true) :
    op.erpAddress = op.targetExternalId := if_pos h

theorem erpAddress_of_falsy {op : WriteOperation} (h : op.targetExternalId.truthy = false) :
    op.erpAddress = .str op.idempotencyKey := by
  unfold erpAddress
  rw [h]
  exact if_neg Bool.false_ne_true

end WriteOperation

namespace NetSuiteClient

variable {c : NetSuiteClient} {net : Net} {op : WriteOperation}

theorem fetch_eq (c : NetSuiteClient) (net : Net) (op : WriteOperation) :
    c.fetch net op = c.getRequest net op >>= fun request => currentOf op (net.netsuite request) := by
  unfold fetch getRequest
  cases c.requireConfigured with
  | error text => rfl
  | ok u =>
    cases c.sign net op "GET" (c.recordUrl op) with
    | error text => rfl
    | ok authorization =>
      cases hanswer : net.netsuite
          { method := "GET", url := c.recordUrl op, headers := [("Authorization", authorization)] } with
      | error text => simp [bind, Except.bind, pure, Except.pure, currentOf, hanswer]
      | ok response =>
        cases hbody : response.jsonOf with
        | none => simp [bind, Except.bind, pure, Except.pure, currentOf, hanswer, hbody]
        | some body => simp [bind, Except.bind, pure, Except.pure, currentOf, hanswer, hbody]

theorem getRequest_url {request : Request} (h : c.getRequest net op = .ok request) :
    request.url = c.recordUrl op := by
  unfold getRequest at h
  obtain ⟨-, -, h⟩ := bind_eq_ok h
  obtain ⟨authorization, -, h⟩ := bind_eq_ok h
  obtain rfl := Except.ok.inj h
  rfl

theorem putRequest_ok {request : Request} (h : c.putRequest net op = .ok request) :
    c.requireConfigured = .ok () ∧ requireCoherent op = .ok () ∧ request.url = c.recordUrl op ∧
      request.json = some op.payload := by
  unfold putRequest at h
  obtain ⟨u, hconfigured, h⟩ := bind_eq_ok h
  obtain ⟨u', hcoherent, h⟩ := bind_eq_ok h
  obtain ⟨authorization, -, h⟩ := bind_eq_ok h
  obtain rfl := Except.ok.inj h
  exact ⟨hconfigured, hcoherent, rfl, rfl⟩

theorem requireCoherent_ok_iff : requireCoherent op = .ok () ↔ Coherent op := by
  unfold requireCoherent Coherent
  by_cases hupdate : op.operation = "update"
  · have hne : ¬ (op.operation = ("create" : Json)) := by
      rw [hupdate]
      decide
    by_cases htarget : op.targetExternalId = .null <;> simp [hupdate, htarget]
  · by_cases hcreate : op.operation = "create"
    · by_cases htarget : op.targetExternalId = .null <;> simp [hcreate, htarget]
    · simp [hupdate, hcreate]

/-- A write whose operation and target do not fit is refused by the client alone. -/
theorem refused_of_incoherent (h : ¬ Coherent op) (c : NetSuiteClient) (net : Net) :
    c.applyRequests net op = [] ∧ ∃ text, c.apply net op = .error text := by
  unfold applyRequests apply putRequest
  cases hcoherent : requireCoherent op with
  | ok u => exact absurd (requireCoherent_ok_iff.mp hcoherent) h
  | error text =>
    cases c.requireConfigured with
    | error text' => exact ⟨rfl, text', rfl⟩
    | ok u => exact ⟨rfl, text, rfl⟩

theorem eidUrl_injective {eid eid' : String} (h : c.eidUrl op eid = c.eidUrl op eid') : eid = eid' := by
  unfold eidUrl at h
  exact String.append_right_inj _ |>.mp h

/-- Vault signs, and NetSuite reports success. -/
def signing : Net where
  vault := fun _ => .ok ⟨200, [("authorization_header", "OAuth")], ""⟩
  netsuite := fun _ => .ok { statusCode := 204 }
  committed := fun _ => true
  honest := fun _ _ _ _ => rfl

theorem signing_signs : Signs signing := fun _ => ⟨_, rfl, rfl, rfl⟩

/-- A client that is configured. -/
def someClient : NetSuiteClient := .init "https://vault" "secret" "https://netsuite"

/-- The PUT is sent where the write is coherent and Vault signs. -/
theorem putRequest_of_signs (hconfigured : c.requireConfigured = .ok ()) (hcoherent : Coherent op)
    (hsigns : Signs net) : ∃ request, c.putRequest net op = .ok request := by
  obtain ⟨reply, hreply, hstatus, hheader⟩ := hsigns (c.signRequest op "PUT" (c.recordUrl op))
  have hsign : c.sign net op "PUT" (c.recordUrl op) = .ok (reply.body.get "authorization_header") := by
    unfold sign
    unfold signRequest at hreply
    rw [hreply]
    simp [hstatus, hheader]
  unfold putRequest
  rw [hconfigured, requireCoherent_ok_iff.mpr hcoherent, hsign]
  exact ⟨_, rfl⟩

theorem someClient_configured : someClient.requireConfigured = .ok () := by decide +kernel

theorem recordUrl_eq : c.recordUrl op = c.eidUrl op op.erpAddress.pyStr := rfl

/-- An update of the record with the empty id is sent to the key of the write itself. -/
theorem not_addressed_of_blank (hupdate : op.operation = "update") (htarget : op.targetExternalId = "") :
    ¬ AddressedAsAsked op := by
  intro haddressed
  have hcoherent : Coherent op := .inl ⟨hupdate, by rw [htarget]; simp⟩
  obtain ⟨request, hrequest⟩ := putRequest_of_signs someClient_configured hcoherent signing_signs
  have hurl := (putRequest_ok hrequest).2.2.1
  rw [haddressed.update someClient signing request hrequest hupdate, recordUrl_eq] at hurl
  have hsame := eidUrl_injective hurl
  rw [WriteOperation.erpAddress_of_falsy (by rw [htarget]; rfl), htarget] at hsame
  have hlength := congrArg String.length hsame
  simp only [Json.pyStr, WriteOperation.idempotencyKey, String.length_append] at hlength
  have hcavi : "cavi-".length = 5 := rfl
  have hempty : "".length = 0 := rfl
  omega

theorem addressed_update (h : Schema.textOrNull.valid op.targetExternalId = true)
    (hblank : ¬ (op.operation = "update" ∧ op.targetExternalId = "")) {request : Request}
    (hrequest : c.putRequest net op = .ok request) (hupdate : op.operation = "update") :
    request.url = c.eidUrl op op.targetExternalId.pyStr := by
  obtain ⟨-, hcoherent, hurl, -⟩ := putRequest_ok hrequest
  rw [hurl, recordUrl_eq]
  rcases (Schema.valid_textOrNull_iff _).mp h with hnull | ⟨target, htarget⟩
  · rcases requireCoherent_ok_iff.mp hcoherent with ⟨-, hne⟩ | ⟨hcreate, -⟩
    · exact absurd hnull hne
    · rw [hupdate] at hcreate
      exact absurd hcreate (by decide)
  · have hne : target ≠ "" := by
      rintro rfl
      exact hblank ⟨hupdate, htarget⟩
    have htruthy : op.targetExternalId.truthy = true := by
      rw [htarget]
      simp [Json.truthy, hne]
    rw [WriteOperation.erpAddress_of_truthy htruthy]

theorem addressed_create {request : Request} (hrequest : c.putRequest net op = .ok request)
    (hcreate : op.operation = "create") : request.url = c.eidUrl op op.idempotencyKey := by
  obtain ⟨-, hcoherent, hurl, -⟩ := putRequest_ok hrequest
  rw [hurl, recordUrl_eq]
  rcases requireCoherent_ok_iff.mp hcoherent with ⟨hupdate, -⟩ | ⟨-, hnull⟩
  · rw [hcreate] at hupdate
    exact absurd hupdate (by decide)
  · rw [WriteOperation.erpAddress_of_falsy (by rw [hnull]; rfl)]
    rfl

/-- Every PUT goes to the record that the write names, unless the write is an update of the record with
the empty id. -/
theorem addressedAsAsked_iff (h : op.Textual) :
    AddressedAsAsked op ↔ ¬ (op.operation = "update" ∧ op.targetExternalId = "") := by
  constructor
  · rintro haddressed ⟨hupdate, htarget⟩
    exact not_addressed_of_blank hupdate htarget haddressed
  · intro hblank
    refine ⟨?_, ?_, ?_⟩
    · intro c net request hrequest hupdate
      exact addressed_update h.targetExternalId hblank hrequest hupdate
    · intro c net request hrequest hcreate
      exact addressed_create hrequest hcreate
    · intro hincoherent c net
      exact refused_of_incoherent hincoherent c net

/-- An update of the journal entry with the given external id. -/
def journalUpdate (target : String) : WriteOperation where
  writeId := "w-2"
  tenantId := "tenant-a"
  erpPlatform := "netsuite"
  operation := "update"
  targetModule := "journalEntry"
  payload := [("memo", "corrected")]
  requestedBy := "controller"
  diffPreview := ""
  state := .approved
  targetExternalId := .str target

theorem journalUpdate_textual (target : String) : (journalUpdate target).Textual :=
  ⟨⟨_, rfl⟩, ⟨_, rfl⟩, ⟨_, rfl⟩, ⟨_, rfl⟩, ⟨_, rfl⟩, ⟨_, rfl⟩, rfl, rfl⟩

theorem journalUpdate_addressed :
    (journalUpdate "cavi-w-1").Textual ∧ AddressedAsAsked (journalUpdate "cavi-w-1") :=
  ⟨journalUpdate_textual _, (addressedAsAsked_iff (journalUpdate_textual _)).mpr (by decide)⟩

theorem journalUpdate_blank_not_addressed :
    (journalUpdate "").Textual ∧ ¬ AddressedAsAsked (journalUpdate "") ∧
      (someClient.putRequest signing (journalUpdate "")).map Request.url =
        .ok "https://netsuite/record/v1/journalEntry/eid:cavi-w-2" :=
  ⟨journalUpdate_textual _, not_addressed_of_blank rfl rfl, by decide +kernel⟩

end NetSuiteClient

end CaviErp

import CaviErp.Base.Proofs.HostProofs

/-!
# Messages that stop an agent

`run` decodes a message outside of the `try` of `_dispatch`, looks up its contract where only two exceptions are
caught, and records a dead letter under the id of the envelope. A message that is no envelope, and an event that
fails its contract and cannot be recorded, raise and end the loop; one whose id is that of another dead letter is
published, and recorded nowhere. Every other message is handled or quarantined.
-/

namespace CaviErp

open Py

namespace Deadletters

variable {srv : Server} {limit : StrLimit}

/-- An accepted row: what each column was given. -/
theorem rowOf_eq_some_iff {u : Uuid} {envelope : WideObj} {row : DeadletterRow} :
    rowOf srv (some u) envelope = some row ↔
      row.id = u ∧ column srv (envelope.get "subject") = some row.subject ∧
        column srv (envelope.get "source") = some row.source ∧
        column srv (envelope.get "error") = some row.error ∧ row.raw = envelope ∧
        srv.jsonb envelope = true := by
  unfold rowOf
  constructor
  · intro h
    obtain ⟨v, hv, h⟩ := Option.bind_eq_some_iff.mp h
    obtain ⟨subject, hsubject, h⟩ := Option.bind_eq_some_iff.mp h
    obtain ⟨source, hsource, h⟩ := Option.bind_eq_some_iff.mp h
    obtain ⟨error, herror, h⟩ := Option.bind_eq_some_iff.mp h
    obtain rfl := Option.some.inj hv
    split at h
    · rename_i hraw
      obtain rfl := Option.some.inj h
      exact ⟨rfl, hsubject, hsource, herror, rfl, hraw⟩
    · cases h
  · rintro ⟨rfl, hsubject, hsource, herror, rfl, hraw⟩
    simp [hsubject, hsource, herror, hraw]

theorem recordDeadletter_eq_ok_iff {table table' : List DeadletterRow} {envelope : WideObj} :
    recordDeadletter srv limit table envelope = .ok table' ↔
      ∃ row, asUuidOf limit (envelope.get "id") = .ok (some row.id) ∧
        rowOf srv (some row.id) envelope = some row ∧ table' = insert table row := by
  unfold recordDeadletter
  constructor
  · intro h
    obtain ⟨id, hid, h⟩ := bind_eq_ok h
    split at h
    · rename_i row hrow
      cases id with
      | none => cases hrow
      | some u =>
        obtain rfl := (rowOf_eq_some_iff.mp hrow).1
        exact ⟨row, hid, hrow, (Except.ok.inj h).symm⟩
    · cases h
  · rintro ⟨row, hid, hrow, rfl⟩
    simp only [hid, hrow, bind, Except.bind]
    rfl

/-- A dead letter is in the table after it was recorded if no other has its id. -/
theorem mem_insert_iff {table : List DeadletterRow} {row : DeadletterRow} :
    (∃ r ∈ insert table row, r.raw = row.raw ∧ r.id = row.id) ↔
      (∀ r ∈ table, r.id ≠ row.id) ∨ ∃ r ∈ table, r.id = row.id ∧ r.raw = row.raw := by
  unfold insert
  by_cases hany : (table.any fun r => r.id = row.id) = true
  · rw [if_pos hany]
    obtain ⟨r, hr, hid⟩ := List.any_eq_true.mp hany
    rw [or_iff_right fun hfree => hfree r hr (of_decide_eq_true hid)]
    simp only [and_comm]
  · rw [if_neg hany]
    refine iff_of_true ⟨row, List.mem_append_right _ List.mem_cons_self, rfl, rfl⟩ (.inl fun r hr hid => ?_)
    exact hany (List.any_eq_true.mpr ⟨r, hr, decide_eq_true hid⟩)

end Deadletters

namespace BaseAgent

variable {κ σ : Type} {host : Host κ}

/-! ## Dead letters -/

section Fields

variable (event : TextEvent) (error : Text)

@[simp] theorem get_textEnvelope_id : WideObj.get (textEnvelope event error) "id" = event.id := by
  simp [textEnvelope, TextEvent.toDict, WideObj.get, WideObj.get?]

@[simp] theorem get_textEnvelope_subject :
    WideObj.get (textEnvelope event error) "subject" = event.subject := by
  simp [textEnvelope, TextEvent.toDict, WideObj.get, WideObj.get?, List.lookup_cons]

@[simp] theorem get_textEnvelope_source : WideObj.get (textEnvelope event error) "source" = event.source := by
  simp [textEnvelope, TextEvent.toDict, WideObj.get, WideObj.get?, List.lookup_cons]

@[simp] theorem get_textEnvelope_error : WideObj.get (textEnvelope event error) "error" = .str error := by
  simp [textEnvelope, TextEvent.toDict, WideObj.get, WideObj.get?, List.lookup_cons]

end Fields

theorem dumpsText_eq_ok_iff {value : Wide} {data : String} :
    dumpsText host value = .ok data ↔ host.dumpsLimit value = false ∧ data = value.dumps := by
  unfold dumpsText
  by_cases hlimit : host.dumpsLimit value = true
  · rw [if_pos hlimit, hlimit]
    exact iff_of_false nofun fun h => nomatch h.1
  · rw [if_neg hlimit, Except.ok.injEq, eq_comm]
    exact (and_iff_right (Bool.eq_false_of_not_eq_true hlimit)).symm

theorem count_eq_ok_iff {subject : Wide} {w w' : Desk σ} :
    count subject w = (.ok (), w') ↔ subject.hashable = true ∧ w' = w := by
  unfold count
  by_cases hhash : subject.hashable = true
  · rw [if_pos hhash, and_iff_right hhash, Action.pure_apply, Prod.mk.injEq, and_iff_right rfl, eq_comm]
  · rw [if_neg hhash]
    exact iff_of_false nofun fun h => hhash h.1

/-- A dead letter that is recorded and published: what each step needs, and what it leaves. -/
theorem deadLetterText_eq_ok_iff {event : TextEvent} {error : Text} {w w' : Desk σ} :
    deadLetterText host event error w = (.ok (), w') ↔
      (∃ complaint, checked host (.str (Text.ofString "deadletter.envelope")) (.int 1)
        (.obj (textEnvelope event error)) = .ok complaint) ∧
      event.subject.hashable = true ∧ host.dumpsLimit (.obj (textEnvelope event error)) = false ∧
      ∃ row t channel, Deadletters.asUuidOf host.strLimit event.id = .ok (some row.id) ∧
        Deadletters.rowOf host.server (some row.id) (textEnvelope event error) = some row ∧
        strOf host.strLimit event.subject = .ok t ∧ encoded t = .ok channel ∧
        w' = { w with
          deadletters := Deadletters.insert w.deadletters row
          bus := w.bus ++ [("deadletter." ++ channel, (Wide.obj (textEnvelope event error)).dumps)] } := by
  constructor
  · intro h
    obtain ⟨complaint, hchecked, h⟩ := Action.ofExcept_bind_eq_ok h
    obtain ⟨⟨⟩, v, hrecord, h⟩ := Action.bind_eq_ok h
    obtain ⟨t, hstr, h⟩ := Action.ofExcept_bind_eq_ok h
    obtain ⟨data, hdata, h⟩ := Action.ofExcept_bind_eq_ok h
    obtain ⟨⟨⟩, v', hpublish, hcount⟩ := Action.bind_eq_ok h
    obtain ⟨table, htable, hv⟩ := Action.ofExcept_bind_eq_ok hrecord
    obtain ⟨row, hid, hrow, rfl⟩ := Deadletters.recordDeadletter_eq_ok_iff.mp htable
    obtain ⟨name, hname, hv'⟩ := Action.ofExcept_bind_eq_ok hpublish
    obtain ⟨channel, hchannel, rfl⟩ := encoded_append_eq_ok_iff.mp hname
    obtain ⟨hdumps, rfl⟩ := dumpsText_eq_ok_iff.mp hdata
    obtain ⟨hhash, rfl⟩ := count_eq_ok_iff.mp hcount
    rw [get_textEnvelope_id] at hid
    refine ⟨⟨complaint, hchecked⟩, hhash, hdumps, row, t, channel, hid, hrow, hstr, hchannel, ?_⟩
    rw [← (Prod.mk.inj hv').2, ← (Prod.mk.inj hv).2]
  · rintro ⟨⟨complaint, hchecked⟩, hhash, hdumps, row, t, channel, hid, hrow, hstr, hchannel, rfl⟩
    have hrecord : Deadletters.recordDeadletter host.server host.strLimit w.deadletters
        (textEnvelope event error) = .ok (Deadletters.insert w.deadletters row) :=
      Deadletters.recordDeadletter_eq_ok_iff.mpr
        ⟨row, by rw [get_textEnvelope_id]; exact hid, hrow, rfl⟩
    have hencoded : encoded (Text.ofString "deadletter." ++ t) = .ok ("deadletter." ++ channel) :=
      encoded_append_eq_ok_iff.mpr ⟨channel, hchannel, rfl⟩
    simp [deadLetterText, recordLetter, publishText, count, dumpsText, hchecked, hrecord, hstr, hencoded, hdumps,
      hhash]

/-- The columns take a dead letter whose values are taken, under its id. -/
theorem rowOf_textEnvelope_iff {event : TextEvent} {error : Text} {u : Uuid} :
    (∃ row, row.id = u ∧ Deadletters.rowOf host.server (some u) (textEnvelope event error) = some row) ↔
      (∃ s, Deadletters.column host.server event.subject = some s) ∧
        (∃ s, Deadletters.column host.server event.source = some s) ∧
        (∃ s, host.server.text (.str error) = some s) ∧ host.server.jsonb (textEnvelope event error) = true := by
  constructor
  · rintro ⟨row, -, hrow⟩
    obtain ⟨-, hsubject, hsource, herror, -, hraw⟩ := Deadletters.rowOf_eq_some_iff.mp hrow
    rw [get_textEnvelope_subject] at hsubject
    rw [get_textEnvelope_source] at hsource
    rw [get_textEnvelope_error] at herror
    exact ⟨⟨_, hsubject⟩, ⟨_, hsource⟩, ⟨_, herror⟩, hraw⟩
  · rintro ⟨⟨subject, hsubject⟩, ⟨source, hsource⟩, ⟨text, htext⟩, hraw⟩
    refine ⟨⟨u, subject, source, textEnvelope event error, text⟩, rfl, Deadletters.rowOf_eq_some_iff.mpr ?_⟩
    rw [get_textEnvelope_subject, get_textEnvelope_source, get_textEnvelope_error]
    exact ⟨rfl, hsubject, hsource, htext, rfl, hraw⟩

/-- A row that is made of an envelope holds it. -/
theorem raw_of_rowOf {u : Uuid} {envelope : WideObj} {row : DeadletterRow}
    (h : Deadletters.rowOf host.server (some u) envelope = some row) : row.raw = envelope :=
  (Deadletters.rowOf_eq_some_iff.mp h).2.2.2.2.1

/-- The letter is in the table afterwards exactly if its id is no other's before. -/
theorem recorded_iff_freeFor {envelope : WideObj} {row : DeadletterRow} {w : Desk σ}
    (h : Deadletters.rowOf host.server (some row.id) envelope = some row) :
    (∃ r ∈ Deadletters.insert w.deadletters row, r.raw = envelope ∧ r.id = row.id) ↔
      FreeFor row.id envelope w := by
  have hraw := raw_of_rowOf h
  unfold FreeFor
  rw [← hraw]
  exact Deadletters.mem_insert_iff

theorem deadLetterText_of_quarantinable {event : TextEvent} {error : Text} {w : Desk σ}
    (hhash : event.subject.hashable = true) (h : Quarantinable host w event error) :
    ∃ w', deadLetterText host event error w = (.ok (), w') ∧
      (∃ r ∈ w'.deadletters, r.raw = textEnvelope event error ∧
        Deadletters.asUuidOf host.strLimit event.id = .ok (some r.id)) ∧
      (∃ channel, strOf host.strLimit event.subject = .ok (Text.ofString channel) ∧ w'.bus =
        w.bus ++ [("deadletter." ++ channel, (Wide.obj (textEnvelope event error)).dumps)]) ∧
      w'.self = w.self := by
  obtain ⟨u, hid, hfree⟩ := h.id
  obtain ⟨row, rfl, hrow⟩ := (rowOf_textEnvelope_iff (u := u)).mpr ⟨h.subject, h.source, h.text, h.raw⟩
  obtain ⟨t, channel, hstr, hchannel⟩ := printable_iff.mpr h.channel
  refine ⟨_, deadLetterText_eq_ok_iff.mpr
    ⟨h.contract, hhash, h.data, row, t, channel, hid, hrow, hstr, hchannel, rfl⟩, ?_, ⟨channel, ?_, rfl⟩, rfl⟩
  · obtain ⟨r, hr, hraw, hsame⟩ := (recorded_iff_freeFor hrow).mpr hfree
    exact ⟨r, hr, hraw, hsame ▸ hid⟩
  · rw [hstr, encoded_eq_ok_iff.mp hchannel]

/-! ## One message -/

variable {handle : TextEvent → Action (Desk σ) PyError Unit}

theorem onText_of_met {data : Text} {event : TextEvent} (hdecode : decodeText host data = .ok event)
    (hmet : checked host event.subject event.schemaVersion event.payload = .ok none) (w : Desk σ) :
    onText host handle data w = (count event.subject >>= fun _ => handle event) w := by
  unfold onText dispatchText
  simp only [Action.bind_apply, Action.ofExcept_apply, hdecode, hmet]

theorem onText_of_failed {data : Text} {event : TextEvent} {error : Text}
    (hdecode : decodeText host data = .ok event)
    (hfailed : checked host event.subject event.schemaVersion event.payload = .ok (some error)) (w : Desk σ) :
    onText host handle data w = deadLetterText host event error w := by
  unfold onText dispatchText
  simp only [Action.bind_apply, Action.ofExcept_apply, hdecode, hfailed]

/-- A message that is passed on met its contract, or was quarantined. -/
theorem decode_of_onText {data : Text} {w w' : Desk σ} (h : onText host handle data w = (.ok (), w')) :
    ∃ event complaint, decodeText host data = .ok event ∧
      checked host event.subject event.schemaVersion event.payload = .ok complaint := by
  obtain ⟨event, hdecode, h⟩ := Action.ofExcept_bind_eq_ok h
  obtain ⟨complaint, hchecked, -⟩ := Action.ofExcept_bind_eq_ok h
  exact ⟨event, complaint, hdecode, hchecked⟩

/-- A digestible message is handled or quarantined, and the loop goes on. -/
theorem onText_of_digestible (hhandle : ∀ event w, (handle event w).1 = .ok ()) {data : Text} {w : Desk σ}
    (h : Digestible host data w) :
    (onText host handle data w).1 = .ok () ∧ Fate host handle data w (onText host handle data w).2 := by
  obtain ⟨event, complaint, hdecode, hhash, hchecked, hquarantine⟩ := h
  cases complaint with
  | none =>
    rw [onText_of_met hdecode hchecked]
    have hcount : (count event.subject >>= fun _ => handle event) w = handle event w := by
      rw [Action.bind_apply, count_eq_ok_iff.mpr ⟨hhash, rfl⟩]
    rw [hcount]
    exact ⟨hhandle event w, .handled hdecode hchecked⟩
  | some error =>
    rw [onText_of_failed hdecode hchecked]
    obtain ⟨w', hdead, hrecorded, ⟨channel, -, hpublished⟩, hself⟩ :=
      deadLetterText_of_quarantinable hhash (hquarantine error rfl)
    rw [hdead]
    exact ⟨rfl, .quarantined hdecode hchecked hrecorded ⟨channel, hpublished⟩ hself⟩

/-- A message that met its fate, and after which the loop went on, was digestible. -/
theorem digestible_of_onText {data : Text} {w w' : Desk σ} (h : onText host handle data w = (.ok (), w'))
    (hfate : Fate host handle data w w') : Digestible host data w := by
  obtain ⟨event, complaint, hdecode, hchecked⟩ := decode_of_onText h
  cases complaint with
  | none =>
    rw [onText_of_met hdecode hchecked] at h
    obtain ⟨⟨⟩, v, hcount, -⟩ := Action.bind_eq_ok h
    exact ⟨event, none, hdecode, (count_eq_ok_iff.mp hcount).1, hchecked, nofun⟩
  | some error =>
    rw [onText_of_failed hdecode hchecked] at h
    obtain ⟨hcontract, hhash, hdumps, row, t, channel, hid, hrow, hstr, hchannel, hw'⟩ :=
      deadLetterText_eq_ok_iff.mp h
    obtain ⟨hsubject, hsource, htext, hraw⟩ := rowOf_textEnvelope_iff.mp ⟨row, rfl, hrow⟩
    refine ⟨event, some error, hdecode, hhash, hchecked, fun error' herror => ?_⟩
    obtain rfl := Option.some.inj herror
    refine ⟨hcontract, ⟨row.id, hid, (recorded_iff_freeFor hrow).mp ?_⟩, hsubject, hsource, htext, hraw,
      printable_iff.mp ⟨t, channel, hstr, hchannel⟩, hdumps⟩
    -- a fate of a message that failed its contract is a row that holds its dead letter
    cases hfate with
    | handled hdecode' hmet =>
      obtain rfl := Except.ok.inj (hdecode.symm.trans hdecode')
      rw [hchecked] at hmet
      cases hmet
    | quarantined hdecode' hfailed hrecorded hpublished hself =>
      obtain rfl := Except.ok.inj (hdecode.symm.trans hdecode')
      obtain rfl := Option.some.inj (Except.ok.inj (hchecked.symm.trans hfailed))
      obtain ⟨r, hr, hsame, hrid⟩ := hrecorded
      rw [hw'] at hr
      exact ⟨r, hr, hsame, (Option.some.inj (Except.ok.inj (hid.symm.trans hrid))).symm⟩

/-- **Of a message without halves the loop makes what the runtime does.** On a machine without limits, what is
digestible is handed on by both, or both publish the same dead letter. -/
theorem onText_ofString {ω τ : Type} (rt : Runtime) (server : Deadletters.Server)
    (hdir : Path.Plain (Text.ofString rt.registry.dir)) {s : String} {event : Event}
    (hdecode : decode s = .ok event)
    (hkey : '/' ∉ (SchemaRegistry.key event.subject event.schemaVersion).toList) {w : Desk σ}
    (hdigestible : Digestible (.registry rt.registry server) (Text.ofString s) w)
    (handleText : TextEvent → Action (Desk σ) PyError Unit) (handle : Event → Action (World τ ω) PyError Unit)
    (v : World τ ω) :
    (onText (.registry rt.registry server) handleText (Text.ofString s) w = handleText (.ofEvent event) w ∧
        onMessage rt .healthy handle { data := s } v = handle event v) ∨
      ∃ post, (onText (.registry rt.registry server) handleText (Text.ofString s) w).2.bus = w.bus ++ [post] ∧
        (onMessage rt .healthy handle { data := s } v).2.bus = v.bus ++ [post] := by
  obtain ⟨event', complaint, hdecode', hhash, hchecked, hquarantine⟩ := hdigestible
  have htext : decodeText (.registry rt.registry server) (Text.ofString s) = _ :=
    decodeText_of_decode server hdecode
  obtain rfl := Except.ok.inj (htext.symm.trans hdecode')
  have hcaught := checked_ofJson server hdir hkey event.payload
  obtain rfl := Except.ok.inj (hchecked.symm.trans hcaught)
  rw [onMessage_of_decode rt .healthy rfl hdecode]
  cases hv : rt.registry.validate event.subject event.schemaVersion event.payload with
  | ok u =>
    rw [hv] at hchecked
    refine .inl ⟨?_, dispatch_of_valid rt .healthy hv v⟩
    rw [onText_of_met hdecode' hchecked, Action.bind_apply, count_eq_ok_iff.mpr ⟨hhash, rfl⟩]
  | error e =>
    rw [hv] at hchecked
    obtain ⟨w', hdead, -, ⟨channel, hchannel, hpublished⟩, -⟩ :=
      deadLetterText_of_quarantinable hhash (hquarantine (Text.ofString e.text) (by rw [hv]; rfl))
    rw [onText_of_failed hdecode' hchecked, hdead, dispatch_of_invalid rt .healthy hv, deadLetter_healthy]
    refine .inr ⟨_, hpublished, ?_⟩
    have hsubject : channel = event.subject.pyStr :=
      Text.ofString_injective (Except.ok.inj (hchannel.symm.trans (strOf_ofJson event.subject)))
    rw [hsubject, textEnvelope_ofEvent, Wide.dumps_ofJson]
    rfl

/-! ## Runs -/

/-- **One bad message.** The agent works through all of its messages, each handled or quarantined, if and
only if each of them finds the agent in a state in which it is digestible. -/
theorem keepsFlowing_iff_digestible (host : Host κ) (handle : TextEvent → Action (Desk σ) PyError Unit)
    (hhandle : ∀ event w, (handle event w).1 = .ok ()) (data : List Text) (w : Desk σ) :
    KeepsFlowing host handle data w ↔ Action.Along (onText host handle) (Digestible host) w data := by
  unfold KeepsFlowing runTexts
  rw [Action.forEach_ok_iff, ← Action.along_and]
  refine Action.along_congr fun d v => ⟨?_, onText_of_digestible hhandle⟩
  rintro ⟨hreturns, hfate⟩
  exact digestible_of_onText (Prod.ext hreturns rfl) hfate

/-! ## The envelope of the sale-to-posting workflow -/

/-- A server whose types take what the driver makes of a value, and any dictionary. -/
def lenient : Deadletters.Server := ⟨fun value => value.pyStr.string?, fun _ => true⟩

def registered : SchemaRegistry := .repository "schema_registry/schemas" fun _ _ => "invalid"

theorem column_lenient (s : String) : Deadletters.column lenient (.ofJson (.str s)) = some s :=
  Text.string?_ofString s

/-- An agent that takes every event and does nothing. -/
def idle : TextEvent → Action (Desk Unit) PyError Unit := fun _ => pure ()

/-- What the workflow publishes on `ledger.entry`: an envelope without an id. -/
def workflowEnvelope : Obj :=
  [("subject", "ledger.entry"), ("schema_version", .int 1), ("source", "n8n:sale-to-posting"),
    ("correlation_id", .null), ("payload", .obj [("entry_id", "e-1")])]

def workflowText : Text := Text.ofString (Message.ofDict workflowEnvelope).data

theorem decodeText_workflowText :
    decodeText (.registry registered lenient) workflowText = .error (.keyError "id") := by
  refine (decodeText_ofString lenient (loads_dumps _)).trans ?_
  simp [workflowEnvelope, Json.reread, Json.rereadItems, Obj.set, Event.fromDict, item, Obj.get?,
    List.lookup_cons, bind, Except.bind, Except.map]

/-- An event with an id, which does not meet `ledger.entry.v1`. -/
def incompleteEvent : Event where
  subject := "ledger.entry"
  schemaVersion := .int 1
  source := "n8n:sale-to-posting"
  payload := .obj [("entry_id", "e-1")]
  id := "00000000-0000-0000-0000-00000000000a"

def incompleteText : Text := Text.ofString (Message.ofDict incompleteEvent.toDict).data

/-- The loop ends at the envelope of the workflow, and the next message is not taken. -/
theorem workflow_envelope_halts :
    (∀ event w, (idle event w).1 = .ok ()) ∧
      (runTexts (.registry registered lenient) idle [workflowText, incompleteText] { self := () }).1 =
        .error (.keyError "id") ∧
      ¬ KeepsFlowing (.registry registered lenient) idle [workflowText, incompleteText] { self := () } := by
  have hhalts : (runTexts (.registry registered lenient) idle [workflowText, incompleteText]
      { self := () }).1 = .error (.keyError "id") := by
    unfold runTexts
    rw [Action.forEach_cons]
    unfold onText
    rw [decodeText_workflowText]
    rfl
  refine ⟨fun _ _ => rfl, hhalts, ?_⟩
  rintro ⟨hreturns, -⟩
  exact absurd (hhalts.symm.trans hreturns) (by simp)

theorem incompleteText_digestible :
    Digestible (.registry registered lenient) incompleteText ({ self := () } : Desk Unit) := by
  have hreread : incompleteEvent.reread = incompleteEvent := by
    simp [Event.reread, incompleteEvent, Json.reread, Json.rereadItems, Obj.set]
  have hdecode := decode_toDict incompleteEvent
  rw [hreread] at hdecode
  have hdir : Path.Plain (Text.ofString registered.dir) := by decide +kernel
  refine ⟨.ofEvent incompleteEvent, _, decodeText_of_decode lenient hdecode, rfl,
    checked_ofJson lenient hdir (by decide +kernel) _, fun error herror => ?_⟩
  obtain ⟨text, rfl⟩ : ∃ text, error = Text.ofString text := by
    unfold caught at herror
    split at herror
    · cases herror
    · exact ⟨_, (Option.some.inj herror).symm⟩
  have hid : asUuid incompleteEvent.id = some 10 := by decide +kernel
  have hcontract := checked_ofJson lenient hdir
    (show '/' ∉ (SchemaRegistry.key (.str "deadletter.envelope") (.int 1)).toList by decide +kernel)
    (.obj (envelope incompleteEvent text))
  exact {
    contract := ⟨_, hcontract⟩
    id := ⟨10, hid ▸ Deadletters.asUuidOf_ofJson incompleteEvent.id,
      .inl fun row hrow => absurd hrow (List.not_mem_nil)⟩
    subject := ⟨_, column_lenient "ledger.entry"⟩
    source := ⟨_, column_lenient "n8n:sale-to-posting"⟩
    text := ⟨text, Text.string?_ofString text⟩
    raw := rfl
    channel := ⟨"ledger.entry", rfl⟩
    data := rfl }

/-- The hypothesis of `keepsFlowing_iff_digestible` holds for the idle agent, which quarantines the event
that does not meet its contract. -/
theorem keepsFlowing_incomplete :
    KeepsFlowing (.registry registered lenient) idle [incompleteText] { self := () } :=
  (keepsFlowing_iff_digestible _ idle (fun _ _ => rfl) _ _).mpr ⟨incompleteText_digestible, trivial⟩

end BaseAgent

end CaviErp

import CaviErp.Lib.Percent
import CaviErp.Lib.Proofs.AlikeProofs
import CaviErp.Lib.Proofs.ScanProofs
import CaviErp.Mapper.Erp
import CaviErp.Shared.Audit

/-!
# What a fingerprint is of

The texts that are hashed, of events in the audit log and of records that are transformed, are canonical:
they tell values without floats apart, whatever the order of the keys, and hold no line break.
-/

namespace CaviErp

open Py

/-- Of two texts that are joined by a newline, the second without one, both can be read off again. -/
theorem append_newline_inj {p q s t : String} (hs : '\n' ∉ s.toList) (ht : '\n' ∉ t.toList)
    (h : p ++ "\n" ++ s = q ++ "\n" ++ t) : p = q ∧ s = t := by
  have hlist : p.toList ++ '\n' :: s.toList = q.toList ++ '\n' :: t.toList := by
    have hchars := congrArg String.toList h
    simpa [String.toList_append] using hchars
  obtain ⟨hbefore, hrest⟩ := Percent.sep_inj_right hs ht hlist
  exact ⟨String.toList_injective hbefore, String.toList_injective hrest⟩

theorem newline_not_mem_dumps (j : Json) : '\n' ∉ (dumps .canonical j).toList := by
  unfold dumps
  rw [String.toList_ofList]
  exact JsonText.scan_no_newline (JsonText.scan_canonical j)

/-- The material of a link is split in one way, into the hash before it and the canonical event. -/
theorem chain_material_inj {prev prev' : String} {event event' : Obj}
    (h : prev ++ "\n" ++ canonicalEvent event = prev' ++ "\n" ++ canonicalEvent event') :
    prev = prev' ∧ canonicalEvent event = canonicalEvent event' :=
  append_newline_inj (newline_not_mem_dumps _) (newline_not_mem_dumps _) h

/-- **A canonical text is a faithful fingerprint.** Values without floats have the same text exactly if
they are equal but for the order of the keys in objects, be it as events or as records. No text holds a
newline, so that what is hashed of an event is split in one way. -/
theorem canonical_fingerprint :
    (∀ a b : Json, a.exact = true → b.exact = true →
      (dumps .canonical a = dumps .canonical b ↔ a.alike b = true)) ∧
    (∀ event event' : Obj, (Json.obj event).exact = true → (Json.obj event').exact = true →
      (canonicalEvent event = canonicalEvent event' ↔ (Json.obj event).alike (.obj event') = true)) ∧
    (∀ record record' : Obj, (Json.obj record).exact = true → (Json.obj record').exact = true →
      (canonicalRecord record = canonicalRecord record' ↔ (Json.obj record).alike (.obj record') = true)) ∧
    (∀ j : Json, '\n' ∉ (dumps .canonical j).toList) ∧
    ∀ (prev prev' : String) (event event' : Obj),
      prev ++ "\n" ++ canonicalEvent event = prev' ++ "\n" ++ canonicalEvent event' →
        prev = prev' ∧ canonicalEvent event = canonicalEvent event' :=
  ⟨fun _ _ ha hb => Json.canonical_eq_iff ha hb, fun _ _ he he' => Json.canonical_eq_iff he he',
    fun _ _ hr hr' => Json.canonical_eq_iff hr hr', newline_not_mem_dumps,
    fun _ _ _ _ h => chain_material_inj h⟩

/-- A record, and the same with its keys in another order and one text that needs a surrogate pair. -/
theorem canonical_fingerprint_surrogate :
    canonicalRecord [("b", .str "𝄞"), ("a", .arr [.int (-2), .null])] =
      canonicalRecord [("a", .arr [.int (-2), .null]), ("b", .str "𝄞")] :=
  (canonical_fingerprint.2.2.1 _ _ (by decide) (by decide)).mpr (by decide)

variable {sha256 : String → String}

/-- With a hash without collisions, records have one fingerprint exactly if they are alike. -/
theorem inputHash_eq_iff (hinj : Function.Injective sha256) {record record' : Obj}
    (hr : (Json.obj record).exact = true) (hr' : (Json.obj record').exact = true) :
    inputHash sha256 record = inputHash sha256 record' ↔ (Json.obj record).alike (.obj record') = true := by
  rw [← Json.canonical_eq_iff hr hr']
  unfold inputHash
  constructor
  · intro h
    exact hinj ((String.append_right_inj "sha256:").mp h)
  · intro h
    exact congrArg (fun text => "sha256:" ++ sha256 text) h

/-- With a hash without collisions, links are the same exactly if the hashes before them are and the events
are alike. -/
theorem chainHash_eq_iff (hinj : Function.Injective sha256) {prev prev' : String} {event event' : Obj}
    (he : (Json.obj event).exact = true) (he' : (Json.obj event').exact = true) :
    chainHash sha256 prev event = chainHash sha256 prev' event' ↔
      prev = prev' ∧ (Json.obj event).alike (.obj event') = true := by
  rw [← Json.canonical_eq_iff he he']
  constructor
  · intro h
    exact chain_material_inj (hinj ((String.append_right_inj "sha256:").mp h))
  · rintro ⟨rfl, h⟩
    unfold chainHash canonicalEvent
    rw [h]

namespace ErpTransformer

/-- Of a record that is transformed, the fingerprint is in the payload, beside what the registered function
makes of it. -/
theorem transform_ok {t : ErpTransformer} {tenantId sourceErp sourceSchema targetSchema value : Json}
    {now : String} {payload : Obj}
    (h : t.transform sha256 tenantId sourceErp sourceSchema targetSchema value now = .ok (.ok payload)) :
    ∃ fn record output, t.lookup sourceSchema targetSchema = .ok (some fn) ∧ dictOf value = some record ∧
      fn record = .ok output ∧
      payload = completedPayload sha256 tenantId sourceErp sourceSchema targetSchema record output now := by
  unfold transform applyTo at h
  cases hfound : t.lookup sourceSchema targetSchema with
  | error e => simp [hfound, bind, Except.bind] at h
  | ok found =>
    cases found with
    | none => simp [hfound, bind, Except.bind, pure, Except.pure] at h
    | some fn =>
      cases hrecord : dictOf value with
      | none => simp [hfound, hrecord, bind, Except.bind, pure, Except.pure] at h
      | some record =>
        cases houtput : fn record with
        | error exc => simp [hfound, hrecord, houtput, Except.map, bind, Except.bind, pure, Except.pure] at h
        | ok output =>
          simp only [hfound, hrecord, houtput, Except.map, bind, Except.bind, pure, Except.pure] at h
          exact ⟨fn, record, output, rfl, rfl, houtput, (Except.ok.inj (Except.ok.inj h)).symm⟩

/-- Records that are transformed to payloads of one fingerprint are alike. -/
theorem alike_of_input_hash (hinj : Function.Injective sha256) {t : ErpTransformer}
    {tenantId sourceErp sourceSchema targetSchema tenantId' sourceErp' sourceSchema' targetSchema' : Json}
    {now now' : String} {record record' payload payload' : Obj}
    (hr : (Json.obj record).exact = true) (hr' : (Json.obj record').exact = true)
    (h : t.transform sha256 tenantId sourceErp sourceSchema targetSchema (.obj record) now =
      .ok (.ok payload))
    (h' : t.transform sha256 tenantId' sourceErp' sourceSchema' targetSchema' (.obj record') now' =
      .ok (.ok payload'))
    (hhash : payload.get? "input_hash" = payload'.get? "input_hash") :
    (Json.obj record).alike (.obj record') = true := by
  obtain ⟨-, _, output, -, hrecord, -, rfl⟩ := transform_ok h
  obtain ⟨-, _, output', -, hrecord', -, rfl⟩ := transform_ok h'
  obtain rfl := Option.some.inj hrecord
  obtain rfl := Option.some.inj hrecord'
  rw [← inputHash_eq_iff hinj hr hr']
  have hfield : ∀ (a b c d : Json) (r out : Obj) (n : String),
      Obj.get? (completedPayload sha256 a b c d r out n) "input_hash" =
        some (.str (inputHash sha256 r)) := fun _ _ _ _ _ _ _ => rfl
  rw [hfield, hfield] at hhash
  exact Json.str.inj (Option.some.inj hhash)

end ErpTransformer

end CaviErp

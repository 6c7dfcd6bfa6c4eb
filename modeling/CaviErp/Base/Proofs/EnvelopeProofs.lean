import CaviErp.Base.Envelope
import CaviErp.Lib.Proofs.TextProofs

/-!
# Reading envelopes with any strings

What is read of a dictionary without halves is the `Event` that is read of it, and a string has an encoding if it
has no halves.
-/

namespace CaviErp

open Py

/-! ## Strings that are encoded -/

theorem encoded_ofString (s : String) : encoded (Text.ofString s) = .ok s := by
  unfold encoded
  rw [Text.string?_ofString]

theorem encoded_eq_ok_iff {t : Text} {s : String} : encoded t = .ok s ↔ t = Text.ofString s := by
  constructor
  · intro h
    unfold encoded at h
    cases hs : t.string? with
    | none =>
      rw [hs] at h
      cases h
    | some u =>
      rw [hs] at h
      obtain rfl := Except.ok.inj h
      exact Text.string?_eq_some_iff.mp hs
  · rintro rfl
    exact encoded_ofString s

theorem encoded_ok_iff {t : Text} : (∃ s, encoded t = .ok s) ↔ Encodable t :=
  exists_congr fun _ => encoded_eq_ok_iff

/-- A string is encoded after another as it is alone. -/
theorem encoded_append_eq_ok_iff {a c : String} {t : Text} :
    encoded (Text.ofString a ++ t) = .ok c ↔ ∃ b, encoded t = .ok b ∧ c = a ++ b := by
  rw [encoded_eq_ok_iff]
  constructor
  · intro h
    obtain ⟨as, bs, hc, ha, hb⟩ := List.map_eq_append_iff.mp h.symm
    have hprefix : String.ofList as = a :=
      Text.ofString_injective ((Text.ofString_ofList as).trans ha)
    refine ⟨String.ofList bs, ?_, ?_⟩
    · rw [← hb, ← Text.ofString_ofList, encoded_ofString]
    · rw [← hprefix, ← String.ofList_append, ← hc, String.ofList_toList]
  · rintro ⟨b, hb, rfl⟩
    rw [encoded_eq_ok_iff.mp hb, Text.ofString_append]

variable {limit : StrLimit}

theorem printable_iff {value : Wide} :
    (∃ t s, strOf limit value = .ok t ∧ encoded t = .ok s) ↔ Printable limit value := by
  cases value with
  | str t =>
    constructor
    · rintro ⟨u, s, hu, hs⟩
      obtain rfl := Except.ok.inj hu
      exact encoded_ok_iff.mp ⟨s, hs⟩
    · intro h
      obtain ⟨s, hs⟩ := encoded_ok_iff.mpr h
      exact ⟨t, s, rfl, hs⟩
  | _ =>
    unfold strOf Printable
    dsimp only
    constructor
    · rintro ⟨u, s, hu, -⟩
      split at hu
      · cases hu
      · rename_i hlimit
        exact Bool.eq_false_of_not_eq_true hlimit
    · intro h
      rw [if_neg (Bool.eq_false_iff.mp h)]
      exact ⟨_, _, rfl, encoded_ofString _⟩

/-! ## Events -/

theorem itemOf_ofJson (data : Json) (key : String) :
    itemOf (.ofJson data) key = (item data key).map Wide.ofJson := by
  cases data with
  | obj o =>
    unfold itemOf item
    rw [Wide.ofJson]
    dsimp only
    rw [Wide.get?_ofItems]
    cases Obj.get? o key <;> rfl
  | _ => rfl

theorem getOf_ofJson (data : Json) (key : String) :
    getOf (.ofJson data) key = (getItem? data key).map fun value => Wide.ofJson (value.getD .null) := by
  cases data with
  | obj o =>
    unfold getOf getItem?
    rw [Wide.ofJson]
    dsimp only
    rw [Wide.get_ofItems]
    rfl
  | _ => rfl

/-- **The event of a dictionary without halves.** -/
theorem TextEvent.fromDict_ofJson (data : Json) :
    fromDict (.ofJson data) = (Event.fromDict data).map ofEvent := by
  unfold fromDict Event.fromDict
  simp only [itemOf_ofJson, getOf_ofJson]
  cases item data "id" with
  | error e => rfl
  | ok id =>
    cases item data "subject" with
    | error e => rfl
    | ok subject =>
      cases item data "schema_version" with
      | error e => rfl
      | ok schemaVersion =>
        cases item data "source" with
        | error e => rfl
        | ok source =>
          cases getItem? data "correlation_id" with
          | error e => rfl
          | ok correlationId =>
            cases getItem? data "tenant_id" with
            | error e => rfl
            | ok tenantId =>
              cases item data "payload" with
              | error e => rfl
              | ok payload => rfl

end CaviErp

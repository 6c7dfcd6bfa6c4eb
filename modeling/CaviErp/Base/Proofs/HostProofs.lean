import CaviErp.Base.Quarantine
import CaviErp.Base.Proofs.AgentProofs
import CaviErp.Base.Proofs.EnvelopeProofs

/-!
# Messages without halves

Of a message without halves of surrogate pairs, on a machine without limits, the loop makes what the runtime of
`CaviErp.Base.Agent` does: it reads the same event, finds the same contract, hands the event on, or publishes the
same dead letter.
-/

namespace CaviErp

open Py

theorem strOf_ofJson (j : Json) : strOf (fun _ => false) (.ofJson j) = .ok (Text.ofString j.pyStr) := by
  have hstr := Wide.pyStr_ofJson j
  cases j with
  | str s => rfl
  | _ => exact congrArg Except.ok hstr

theorem truthy_ofJson (j : Json) : (Wide.ofJson j).truthy = j.truthy := by
  cases j with
  | str s =>
    rw [Wide.ofJson, Wide.truthy, Json.truthy, Bool.eq_iff_iff, Bool.not_eq_true', bne_iff_ne,
      List.isEmpty_eq_false_iff, ne_eq, Text.ofString_eq_nil_iff]
  | arr xs => cases xs <;> rfl
  | obj kvs => cases kvs <;> rfl
  | float x => cases x <;> rfl
  | _ => rfl

theorem Deadletters.asUuidOf_ofJson (j : Json) : asUuidOf (fun _ => false) (.ofJson j) = .ok (asUuid j) := by
  unfold asUuidOf asUuid
  rw [truthy_ofJson, strOf_ofJson]
  split
  · exact congrArg (fun s => Except.ok (parseUuid s)) (Text.blurred_ofString _)
  · rfl

namespace BaseAgent

/-- What `except (SchemaNotFound, ValidationError)` catches of a validation, as a text. -/
def caught (result : Except PyError Unit) : Option Text :=
  match result with
  | .ok _ => none
  | .error e => some (Text.ofString e.text)

/-! ## The registry -/

variable {r : SchemaRegistry} (server : Deadletters.Server)

theorem schemaName_path (dir key : String) :
    schemaName dir (Text.ofString dir ++ Path.slash :: (Text.ofString key ++ Text.ofString ".json")) =
      some key := by
  have hsplit : Text.ofString dir ++ Path.slash :: (Text.ofString key ++ Text.ofString ".json") =
      Text.ofString (dir ++ "/") ++ (Text.ofString key ++ Text.ofString ".json") := by
    rw [Text.ofString_append, List.append_assoc]
    rfl
  have hfile : (Text.ofString (dir ++ "/") ++ (Text.ofString key ++ Text.ofString ".json")).dropPrefix?
      (Text.ofString (dir ++ "/")) = some (Text.ofString key ++ Text.ofString ".json") :=
    List.dropPrefix?_eq_some_iff.mpr ⟨_, rfl, beq_self_eq_true _⟩
  have hname : (Text.ofString key ++ Text.ofString ".json").dropSuffix? (Text.ofString ".json") =
      some (Text.ofString key) :=
    List.dropSuffix?_eq_some_iff.mpr ⟨_, rfl, beq_self_eq_true _⟩
  unfold schemaName
  rw [hsplit, hfile]
  show (List.dropSuffix? _ _ >>= fun name => Text.string? name) = _
  rw [hname]
  exact Text.string?_ofString key

theorem schemaKey_ofJson (subject version : Json) :
    schemaKey (.registry r server) (.ofJson subject) (.ofJson version) =
      .ok (Text.ofString (SchemaRegistry.key subject version)) := by
  unfold schemaKey
  have hsubject : strOf (Host.registry r server).strLimit (.ofJson subject) = _ := strOf_ofJson subject
  have hversion : strOf (Host.registry r server).strLimit (.ofJson version) = _ := strOf_ofJson version
  rw [hsubject, hversion]
  show Except.ok _ = _
  rw [SchemaRegistry.key, Text.ofString_append, Text.ofString_append]

/-- A name without a slash is that of a file of the directory. -/
theorem schemaPath_name (hdir : Path.Plain (Text.ofString r.dir)) {key : String} (hkey : '/' ∉ key.toList) :
    schemaPath (.registry r server) (Text.ofString key) =
      Text.ofString r.dir ++ Path.slash :: (Text.ofString key ++ Text.ofString ".json") := by
  refine Path.text_join hdir ?_ ?_ ?_
  · intro hslash
    rcases List.mem_append.mp hslash with h | h
    · obtain ⟨c, hc, heq⟩ := List.mem_map.mp h
      exact hkey (Point.char.inj heq ▸ hc)
    · revert h
      decide +kernel
  · intro h
    have hlength := congrArg List.length h
    simp [Text.ofString] at hlength
  · intro h
    have hlength := congrArg List.length h
    have hjson : (Text.ofString ".json").length = 5 := by decide +kernel
    rw [List.length_append, hjson, List.length_singleton] at hlength
    omega

/-- **The contract of an event without halves is looked up where the registry has it.** -/
theorem checked_ofJson (hdir : Path.Plain (Text.ofString r.dir)) {subject version : Json}
    (hkey : '/' ∉ (SchemaRegistry.key subject version).toList) (payload : Json) :
    checked (.registry r server) (.ofJson subject) (.ofJson version) (.ofJson payload) =
      .ok (caught (r.validate subject version payload)) := by
  have hpath := schemaPath_name server hdir hkey
  have hname := schemaName_path r.dir (SchemaRegistry.key subject version)
  have hblurred := Wide.blurred_ofJson payload
  unfold checked validateText getSchema
  rw [schemaKey_ofJson server]
  simp only [Except.mapError, bind, Except.bind, hpath]
  unfold Host.registry SchemaRegistry.validate SchemaRegistry.get
  simp only [hname, Option.bind_some, hblurred, bind, Except.bind]
  cases r.files (SchemaRegistry.key subject version) with
  | none =>
    simp only [Option.isSome_none, Bool.false_eq_true, if_false, caught, PyError.text]
    have hslash : Path.slash :: (Text.ofString (SchemaRegistry.key subject version) ++ Text.ofString ".json") =
        Text.ofString "/" ++ Text.ofString (SchemaRegistry.key subject version) ++ Text.ofString ".json" := rfl
    rw [hslash]
    simp only [Text.ofString_append, List.append_assoc]
  | some schema =>
    simp only [Option.isSome_some, if_true]
    by_cases hvalid : schema.valid payload = true
    · rw [if_pos hvalid, if_pos hvalid]
      rfl
    · rw [if_neg hvalid, if_neg hvalid]
      rfl

/-! ## Events -/

theorem decodeText_ofString {s : String} {j : Json} (h : loads s = some j) :
    decodeText (.registry r server) (Text.ofString s) = (Event.fromDict j).map TextEvent.ofEvent := by
  rw [← TextEvent.fromDict_ofJson]
  unfold decodeText loadsText
  rw [Text.loads_ofString h]
  rfl

/-- **What the runtime reads of a message without halves is what the loop reads of it.** -/
theorem decodeText_of_decode {s : String} {event : Event} (h : decode s = .ok event) :
    decodeText (.registry r server) (Text.ofString s) = .ok (.ofEvent event) := by
  unfold decode at h
  cases hloads : loads s with
  | none =>
    rw [hloads] at h
    cases h
  | some j =>
    rw [hloads] at h
    exact (decodeText_ofString server hloads).trans (congrArg (Except.map TextEvent.ofEvent) h)

theorem textEnvelope_ofEvent (event : Event) (error : String) :
    Wide.obj (textEnvelope (.ofEvent event) (Text.ofString error)) =
      Wide.ofJson (.obj (envelope event error)) := rfl

end BaseAgent

end CaviErp

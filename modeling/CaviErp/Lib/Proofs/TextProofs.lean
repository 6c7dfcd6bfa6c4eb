import CaviErp.Lib.TextJson

/-!
# Strings without halves

A text without halves is a `String`, and a value without them a `Json`. Where `json.loads` makes a `Json` of a
string, it is the value that is read of the string's code points.
-/

namespace Py

namespace Text

theorem mapM_char? (cs : List Char) : (cs.map Point.char).mapM Point.char? = some cs := by
  induction cs with
  | nil => rfl
  | cons c cs ih => simp [ih, Point.char?]

theorem eq_map_of_mapM {t : Text} {cs : List Char} (h : t.mapM Point.char? = some cs) : t = cs.map .char := by
  induction t generalizing cs with
  | nil => simp_all
  | cons p t ih =>
    cases p with
    | half n => simp [Point.char?] at h
    | char c =>
      rw [List.mapM_cons] at h
      obtain ⟨d, hd, h⟩ := Option.bind_eq_some_iff.mp h
      obtain ⟨ds, hds, h⟩ := Option.bind_eq_some_iff.mp h
      obtain rfl := Option.some.inj hd
      obtain rfl := Option.some.inj h
      rw [ih hds, List.map_cons]

@[simp] theorem string?_ofString (s : String) : (ofString s).string? = some s := by
  unfold string? ofString
  rw [mapM_char?, Option.map_some, String.ofList_toList]

theorem string?_eq_some_iff {t : Text} {s : String} : t.string? = some s ↔ t = ofString s := by
  constructor
  · intro h
    obtain ⟨cs, hcs, rfl⟩ := Option.map_eq_some_iff.mp h
    rw [eq_map_of_mapM hcs, ofString, String.toList_ofList]
  · rintro rfl
    exact string?_ofString s

theorem ofString_injective : Function.Injective ofString := fun s s' h => by
  have hs := string?_ofString s
  rw [h, string?_ofString] at hs
  exact (Option.some.inj hs).symm

@[simp] theorem ofString_inj {s s' : String} : ofString s = ofString s' ↔ s = s' := ofString_injective.eq_iff

theorem ofString_ofList (cs : List Char) : ofString (String.ofList cs) = cs.map .char := by
  rw [ofString, String.toList_ofList]

theorem ofString_append (s s' : String) : ofString (s ++ s') = ofString s ++ ofString s' := by
  unfold ofString
  rw [String.toList_append, List.map_append]

@[simp] theorem ofString_beq (s s' : String) : (ofString s == ofString s') = (s == s') := by
  rw [Bool.eq_iff_iff, beq_iff_eq, beq_iff_eq, ofString_inj]

theorem repr_ofString (s : String) : (ofString s).repr = Json.reprStr s := by
  have hcontains : ∀ c, (s.toList.map Point.char).contains (.char c) = s.toList.contains c := by
    intro c
    rw [Bool.eq_iff_iff]
    simp
  unfold repr Json.reprStr ofString
  rw [hcontains, hcontains]
  dsimp only
  rw [List.flatMap_map]
  rfl

theorem quote_ofString (s : String) : (ofString s).quote = Py.quote s := by
  unfold quote Py.quote ofString
  rw [List.flatMap_map]
  rfl

@[simp] theorem blurred_ofString (s : String) : (ofString s).blurred = s := by
  unfold blurred ofString
  rw [List.map_map]
  exact (congrArg String.ofList (List.map_id _)).trans (String.ofList_toList ..)

theorem ofString_eq_nil_iff {s : String} : ofString s = [] ↔ s = "" := by
  rw [ofString, List.map_eq_nil_iff, String.toList_eq_nil_iff]

end Text

namespace Wide

mutual

@[simp] theorem blurred_ofJson : ∀ j : Json, (ofJson j).blurred = j
  | .null => rfl
  | .bool _ => rfl
  | .int _ => rfl
  | .float _ => rfl
  | .str s => congrArg Json.str (Text.blurred_ofString s)
  | .arr xs => congrArg Json.arr (blurredList_ofJsonList xs)
  | .obj kvs => congrArg Json.obj (blurredItems_ofItems kvs)

theorem blurredList_ofJsonList : ∀ xs : List Json, blurredList (ofJsonList xs) = xs
  | [] => rfl
  | x :: xs => by rw [ofJsonList, blurredList, blurred_ofJson x, blurredList_ofJsonList xs]

theorem blurredItems_ofItems : ∀ kvs : Obj, blurredItems (ofItems kvs) = kvs
  | [] => rfl
  | (k, v) :: kvs => by
    rw [ofItems, blurredItems, Text.blurred_ofString, blurred_ofJson v, blurredItems_ofItems kvs]

end

mutual

theorem repr_ofJson : ∀ j : Json, (ofJson j).repr = j.repr
  | .null => rfl
  | .bool true => rfl
  | .bool false => rfl
  | .int _ => rfl
  | .float _ => rfl
  | .str s => Text.repr_ofString s
  | .arr xs => by rw [ofJson, repr, Json.repr, reprList_ofJsonList xs]
  | .obj kvs => by rw [ofJson, repr, Json.repr, reprItems_ofItems kvs]

theorem reprList_ofJsonList : ∀ xs : List Json, reprList (ofJsonList xs) = Json.reprList xs
  | [] => rfl
  | x :: xs => by rw [ofJsonList, reprList, Json.reprList, repr_ofJson x, reprList_ofJsonList xs]

theorem reprItems_ofItems : ∀ kvs : Obj, reprItems (ofItems kvs) = Json.reprItems kvs
  | [] => rfl
  | (k, v) :: kvs => by
    rw [ofItems, reprItems, Json.reprItems, Text.repr_ofString, repr_ofJson v, reprItems_ofItems kvs]

end

theorem pyStr_ofJson (j : Json) : (ofJson j).pyStr = Text.ofString j.pyStr := by
  cases j with
  | str s => rfl
  | null => rfl
  | bool b => cases b <;> rfl
  | int n => rfl
  | float x => rfl
  | arr xs => exact congrArg (fun cs => Text.ofString (String.ofList cs)) (repr_ofJson (.arr xs))
  | obj kvs => exact congrArg (fun cs => Text.ofString (String.ofList cs)) (repr_ofJson (.obj kvs))

mutual

theorem dumpChars_ofJson : ∀ j : Json, (ofJson j).dumpChars = Py.dumpChars .default j
  | .null => rfl
  | .bool true => rfl
  | .bool false => rfl
  | .int _ => rfl
  | .float _ => rfl
  | .str s => Text.quote_ofString s
  | .arr xs => by
    rw [ofJson, dumpChars, Py.dumpChars, dumpList_ofJsonList xs]
    rfl
  | .obj kvs => by
    rw [ofJson, dumpChars, Py.dumpChars, dumpItems_ofItems kvs]
    rfl

theorem dumpList_ofJsonList : ∀ xs : List Json, dumpList (ofJsonList xs) = Py.dumpList .default xs
  | [] => rfl
  | x :: xs => by rw [ofJsonList, dumpList, Py.dumpList, dumpChars_ofJson x, dumpList_ofJsonList xs]

theorem dumpItems_ofItems : ∀ kvs : Obj, dumpItems (ofItems kvs) =
    (Py.dumpItems .default kvs).map fun kv => Py.quote kv.1 ++ [':', ' '] ++ kv.2
  | [] => rfl
  | (k, v) :: kvs => by
    rw [ofItems, dumpItems, Py.dumpItems, Text.quote_ofString, dumpChars_ofJson v, dumpItems_ofItems kvs,
      List.map_cons]

end

theorem dumps_ofJson (j : Json) : (ofJson j).dumps = Py.dumps .default j :=
  congrArg String.ofList (dumpChars_ofJson j)

theorem ofItems_set (o : Obj) (k : String) (v : Json) :
    ofItems (o.set k v) = WideObj.set (ofItems o) (Text.ofString k) (ofJson v) := by
  induction o with
  | nil => rfl
  | cons kv o ih =>
    obtain ⟨l, w⟩ := kv
    rw [Obj.set, ofItems, WideObj.set]
    by_cases hl : l = k
    · rw [if_pos hl, if_pos (congrArg Text.ofString hl), ofItems]
    · rw [if_neg hl, if_neg (by simpa using hl), ofItems, ih]

theorem ofItems_foldl (kvs o : Obj) :
    ofItems (kvs.foldl (fun o kv => Obj.set o kv.1 kv.2) o) =
      (ofItems kvs).foldl (fun o kv => WideObj.set o kv.1 kv.2) (ofItems o) := by
  induction kvs generalizing o with
  | nil => rfl
  | cons kv kvs ih => rw [List.foldl_cons, ih, ofItems_set, ofItems, List.foldl_cons]

theorem get?_ofItems (o : Obj) (k : String) : WideObj.get? (ofItems o) k = (o.get? k).map ofJson := by
  induction o with
  | nil => rfl
  | cons kv o ih =>
    obtain ⟨l, w⟩ := kv
    unfold WideObj.get? Obj.get? at ih ⊢
    rw [ofItems, List.lookup_cons, List.lookup_cons]
    by_cases hk : k = l
    · simp [hk]
    · have hne : (Text.ofString k == Text.ofString l) = false := by simpa using hk
      rw [hne, beq_eq_false_iff_ne.mpr hk]
      exact ih

theorem get_ofItems (o : Obj) (k : String) : WideObj.get (ofItems o) k = ofJson (o.get k) := by
  unfold WideObj.get Obj.get
  rw [get?_ofItems]
  cases o.get? k <;> rfl

end Wide

/-! ## Reading -/

namespace TextJson

theorem chars_map (cs : List Char) : chars (cs.map .char) = (cs, []) := by
  induction cs with
  | nil => rfl
  | cons c cs ih => rw [List.map_cons, chars, ih]

theorem onChars_map {α : Type} (read : List Char → Option (α × List Char)) (cs : List Char) :
    onChars read (cs.map .char) = (read cs).map fun r => (r.1, r.2.map .char) := by
  unfold onChars
  rw [chars_map]
  simp

theorem skipWs_map (cs : List Char) : skipWs (cs.map .char) = (JsonText.skipWs cs).map .char := by
  unfold skipWs JsonText.skipWs
  rw [List.dropWhile_map]
  rfl

theorem hexVal_lt {c : Char} {n : Nat} (h : JsonText.hexVal c = some n) : n < 16 := by
  unfold JsonText.hexVal at h
  split at h
  · rename_i hdigit
    obtain rfl := Option.some.inj h
    have hle : c.toNat ≤ 57 := by
      simp only [Char.isDigit, Bool.and_eq_true, decide_eq_true_eq] at hdigit
      exact hdigit.2
    have hzero : '0'.toNat = 48 := rfl
    omega
  · split at h
    · rename_i hletter
      obtain rfl := Option.some.inj h
      have hle : c.toNat ≤ 'f'.toNat := hletter.2
      have hf : 'f'.toNat = 102 := rfl
      have ha : 'a'.toNat = 97 := rfl
      omega
    · split at h
      · rename_i hletter
        obtain rfl := Option.some.inj h
        have hle : c.toNat ≤ 'F'.toNat := hletter.2
        have hf : 'F'.toNat = 70 := rfl
        have ha : 'A'.toNat = 65 := rfl
        omega
      · cases h

theorem hexQuad_lt {cs rest : List Char} {n : Nat} (h : JsonText.hexQuad cs = some (n, rest)) : n < 65536 := by
  unfold JsonText.hexQuad at h
  split at h
  · obtain ⟨a, ha, h⟩ := Option.bind_eq_some_iff.mp h
    obtain ⟨b, hb, h⟩ := Option.bind_eq_some_iff.mp h
    obtain ⟨c, hc, h⟩ := Option.bind_eq_some_iff.mp h
    obtain ⟨d, hd, h⟩ := Option.bind_eq_some_iff.mp h
    obtain ⟨rfl, -⟩ := Prod.mk.inj (Option.some.inj h)
    have ha := hexVal_lt ha
    have hb := hexVal_lt hb
    have hc := hexVal_lt hc
    have hd := hexVal_lt hd
    omega
  · cases h

theorem ofCode_of_scalar {n : Nat} (hn : n < 65536) (hhalf : ¬ (0xd800 ≤ n ∧ n < 0xe000)) :
    Point.ofCode n = some (.char (Char.ofNat n)) := by
  unfold Point.ofCode
  rw [dif_neg hhalf, if_pos (by omega)]

theorem lowHalf_eq_none {hi : Nat} (h : ¬ (0xd800 ≤ hi ∧ hi < 0xdc00)) (t : Text) : lowHalf hi t = none := by
  unfold lowHalf
  split
  · rename_i rest
    cases onChars JsonText.hexQuad rest with
    | none => rfl
    | some r =>
      show (if 0xd800 ≤ hi ∧ hi < 0xdc00 ∧ 0xdc00 ≤ r.1 ∧ r.1 < 0xe000 then _ else _) = none
      exact if_neg fun hpair => h ⟨hpair.1, hpair.2.1⟩
  · rfl

theorem lowHalf_map {hi : Nat} (hhi : 0xd800 ≤ hi ∧ hi < 0xdc00) {cs rest : List Char} {c : Char}
    (h : JsonText.lowSurrogate hi cs = some (c, rest)) :
    lowHalf hi (cs.map .char) = some (c, rest.map .char) := by
  unfold JsonText.lowSurrogate at h
  split at h
  · rename_i ds
    obtain ⟨⟨lo, after⟩, hquad, h⟩ := Option.bind_eq_some_iff.mp h
    dsimp only at h
    by_cases hlo : 0xdc00 ≤ lo ∧ lo < 0xe000
    · rw [if_pos hlo] at h
      obtain ⟨rfl, rfl⟩ := Prod.mk.inj (Option.some.inj h)
      have hread : onChars JsonText.hexQuad (ds.map .char) = some (lo, after.map .char) := by
        rw [onChars_map, hquad]
        rfl
      rw [List.map_cons, List.map_cons, lowHalf, hread]
      exact if_pos ⟨hhi.1, hhi.2, hlo.1, hlo.2⟩
    · rw [if_neg hlo] at h
      cases h
  · cases h

/-- An escape that is read as a character. -/
theorem escape_map {cs rest : List Char} {c : Char} (h : JsonText.escape cs = some (c, rest)) :
    escape (cs.map .char) = some (.char c, rest.map .char) := by
  cases cs with
  | nil => cases h
  | cons d ds =>
    rw [JsonText.escape] at h
    rw [List.map_cons]
    by_cases hd : d = 'u'
    · subst hd
      rw [if_pos rfl] at h
      obtain ⟨⟨n, after⟩, hquad, h⟩ := Option.bind_eq_some_iff.mp h
      have hread : onChars JsonText.hexQuad (ds.map .char) = some (n, after.map .char) := by
        rw [onChars_map, hquad]
        rfl
      rw [escape]
      dsimp only at h
      by_cases hhi : 0xd800 ≤ n ∧ n < 0xdc00
      · rw [if_pos hhi] at h
        simp [hread, lowHalf_map hhi h]
      · rw [if_neg hhi] at h
        by_cases hlo : 0xdc00 ≤ n ∧ n < 0xe000
        · rw [if_pos hlo] at h
          cases h
        · rw [if_neg hlo] at h
          obtain ⟨rfl, rfl⟩ := Prod.mk.inj (Option.some.inj h)
          simp [hread, lowHalf_eq_none hhi, ofCode_of_scalar (hexQuad_lt hquad) (by omega)]
    · rw [if_neg hd] at h
      have hescape : escape (.char d :: ds.map .char) =
          (JsonText.simpleEscape d).map fun e => (.char e, ds.map .char) := by
        rw [escape]
        simpa using hd
      rw [hescape]
      obtain ⟨e, he, heq⟩ := Option.map_eq_some_iff.mp h
      obtain ⟨rfl, rfl⟩ := Prod.mk.inj heq
      rw [he]
      rfl

theorem stringBody_map {n : Nat} {cs r rest : List Char} (h : JsonText.stringBody n cs = some (r, rest)) :
    stringBody n (cs.map .char) = some (r.map .char, rest.map .char) := by
  induction n generalizing cs r rest with
  | zero => cases h
  | succ n ih =>
    cases cs with
    | nil => cases h
    | cons c cs =>
      rw [JsonText.stringBody] at h
      rw [List.map_cons, stringBody]
      by_cases hquote : c = '"'
      · rw [if_pos hquote] at h
        obtain ⟨rfl, rfl⟩ := Prod.mk.inj (Option.some.inj h)
        rw [if_pos (congrArg Point.char hquote)]
        rfl
      · rw [if_neg hquote] at h
        rw [if_neg (by simpa using hquote)]
        by_cases hslash : c = '\\'
        · rw [if_pos hslash] at h
          rw [if_pos (congrArg Point.char hslash)]
          obtain ⟨⟨d, after⟩, hescape, h⟩ := Option.bind_eq_some_iff.mp h
          obtain ⟨⟨s, rest'⟩, hbody, h⟩ := Option.bind_eq_some_iff.mp h
          obtain ⟨rfl, rfl⟩ := Prod.mk.inj (Option.some.inj h)
          rw [escape_map hescape]
          show (stringBody n (after.map .char) >>= _) = _
          rw [ih hbody]
          rfl
        · rw [if_neg hslash] at h
          rw [if_neg (by simpa using hslash)]
          by_cases hcontrol : c.toNat < 32
          · rw [if_pos hcontrol] at h
            cases h
          · rw [if_neg hcontrol] at h
            rw [if_neg (show ¬ (Point.char c).code < 32 from hcontrol)]
            obtain ⟨⟨s, rest'⟩, hbody, h⟩ := Option.bind_eq_some_iff.mp h
            obtain ⟨rfl, rfl⟩ := Prod.mk.inj (Option.some.inj h)
            rw [ih hbody]
            rfl

/-- The characters of a text that do not start with `c` do not as code points. -/
theorem map_ne_cons {c : Char} {cs : List Char} (h : ∀ rest, cs = c :: rest → False) (t : Text) :
    cs.map .char = .char c :: t → False := by
  intro heq
  obtain ⟨d, ds, rfl, hd, -⟩ := List.map_eq_cons_iff.mp heq
  exact h ds (by rw [Point.char.inj hd])

/-- With so much fuel, what is read as a `Json` is read alike of the code points. -/
structure Reads (n : Nat) : Prop where
  value : ∀ {cs rest : List Char} {x : Json}, JsonText.value n cs = some (x, rest) →
    value n (cs.map .char) = some (Wide.ofJson x, rest.map .char)
  elements : ∀ {cs rest : List Char} {xs : List Json}, JsonText.elements n cs = some (xs, rest) →
    elements n (cs.map .char) = some (Wide.ofJsonList xs, rest.map .char)
  members : ∀ {cs rest : List Char} {kvs : Obj}, JsonText.members n cs = some (kvs, rest) →
    members n (cs.map .char) = some (Wide.ofItems kvs, rest.map .char)

theorem Reads.value_succ {n : Nat} (ih : Reads n) {cs rest : List Char} {x : Json}
    (h : JsonText.value (n + 1) cs = some (x, rest)) :
    TextJson.value (n + 1) (cs.map .char) = some (Wide.ofJson x, rest.map .char) := by
  cases cs with
  | nil => cases h
  | cons c cs =>
    rw [JsonText.value] at h
    rw [List.map_cons, TextJson.value]
    by_cases hquote : c = '"'
    · rw [if_pos hquote] at h
      rw [if_pos (congrArg Point.char hquote)]
      obtain ⟨⟨s, after⟩, hbody, heq⟩ := Option.map_eq_some_iff.mp h
      obtain ⟨rfl, rfl⟩ := Prod.mk.inj heq
      rw [stringBody_map hbody, Option.map_some, Wide.ofJson, Text.ofString_ofList]
    rw [if_neg hquote] at h
    rw [if_neg (by simpa using hquote)]
    by_cases hbrace : c = '{'
    · rw [if_pos hbrace] at h
      rw [if_pos (congrArg Point.char hbrace), skipWs_map]
      split at h
      · rename_i heq
        obtain ⟨rfl, rfl⟩ := Prod.mk.inj (Option.some.inj h)
        rw [heq]
        rfl
      · rename_i hne
        obtain ⟨⟨kvs, after⟩, hmembers, heq⟩ := Option.map_eq_some_iff.mp h
        obtain ⟨rfl, rfl⟩ := Prod.mk.inj heq
        split
        · rename_i heq'
          exact (map_ne_cons hne _ heq').elim
        · rw [ih.members hmembers, Option.map_some, Wide.ofJson, Wide.ofItems_foldl]
          rfl
    rw [if_neg hbrace] at h
    rw [if_neg (by simpa using hbrace)]
    by_cases hbracket : c = '['
    · rw [if_pos hbracket] at h
      rw [if_pos (congrArg Point.char hbracket), skipWs_map]
      split at h
      · rename_i heq
        obtain ⟨rfl, rfl⟩ := Prod.mk.inj (Option.some.inj h)
        rw [heq]
        rfl
      · rename_i hne
        obtain ⟨⟨xs, after⟩, helements, heq⟩ := Option.map_eq_some_iff.mp h
        obtain ⟨rfl, rfl⟩ := Prod.mk.inj heq
        split
        · rename_i heq'
          exact (map_ne_cons hne _ heq').elim
        · rw [ih.elements helements, Option.map_some, Wide.ofJson]
    rw [if_neg hbracket] at h
    rw [if_neg (by simpa using hbracket), ← List.map_cons, onChars_map, h]
    rfl

theorem Reads.elements_succ {n : Nat} (ih : Reads n) {cs rest : List Char} {xs : List Json}
    (h : JsonText.elements (n + 1) cs = some (xs, rest)) :
    TextJson.elements (n + 1) (cs.map .char) = some (Wide.ofJsonList xs, rest.map .char) := by
  rw [JsonText.elements] at h
  rw [TextJson.elements]
  split at h
  · cases h
  · rename_i x after hvalue
    rw [ih.value hvalue]
    dsimp only
    rw [skipWs_map]
    split at h
    · rename_i heq
      obtain ⟨rfl, rfl⟩ := Prod.mk.inj (Option.some.inj h)
      rw [heq]
      rfl
    · rename_i rest' heq
      obtain ⟨⟨ys, after'⟩, helements, heq'⟩ := Option.map_eq_some_iff.mp h
      obtain ⟨rfl, rfl⟩ := Prod.mk.inj heq'
      rw [heq]
      change Option.map _ (TextJson.elements n (skipWs (rest'.map .char))) = _
      rw [skipWs_map, ih.elements helements]
      rfl
    · cases h

theorem Reads.members_succ {n : Nat} (ih : Reads n) {cs rest : List Char} {kvs : Obj}
    (h : JsonText.members (n + 1) cs = some (kvs, rest)) :
    TextJson.members (n + 1) (cs.map .char) = some (Wide.ofItems kvs, rest.map .char) := by
  cases cs with
  | nil => cases h
  | cons c cs =>
    rw [JsonText.members] at h
    rw [List.map_cons, TextJson.members]
    by_cases hquote : c = '"'
    · rw [if_pos hquote] at h
      rw [if_pos (congrArg Point.char hquote)]
      split at h
      · cases h
      · rename_i k after hbody
        rw [stringBody_map hbody]
        dsimp only
        rw [skipWs_map]
        split at h
        · rename_i after' hcolon
          simp only [hcolon, List.map_cons, skipWs_map]
          split at h
          · cases h
          · rename_i v after'' hvalue
            simp only [ih.value hvalue, skipWs_map]
            split at h
            · rename_i heq
              obtain ⟨rfl, rfl⟩ := Prod.mk.inj (Option.some.inj h)
              simp only [heq, List.map_cons, Wide.ofItems, Text.ofString_ofList]
            · rename_i heq
              obtain ⟨⟨kvs', last⟩, hmembers, heq'⟩ := Option.map_eq_some_iff.mp h
              obtain ⟨rfl, rfl⟩ := Prod.mk.inj heq'
              simp only [heq, List.map_cons, skipWs_map, ih.members hmembers, Option.map_some, Wide.ofItems,
                Text.ofString_ofList]
            · cases h
        · cases h
    · rw [if_neg hquote] at h
      cases h

theorem reads (n : Nat) : Reads n := by
  induction n with
  | zero => exact ⟨nofun, nofun, nofun⟩
  | succ n ih => exact ⟨ih.value_succ, ih.elements_succ, ih.members_succ⟩

theorem document_map {cs : List Char} {j : Json} (h : JsonText.document cs = some j) :
    document (cs.map .char) = some (Wide.ofJson j) := by
  unfold JsonText.document at h
  split at h
  · cases h
  · rename_i x rest hvalue
    unfold document
    rw [List.length_map, skipWs_map, (reads _).value hvalue]
    dsimp only
    rw [skipWs_map, List.isEmpty_map]
    split at h
    · rename_i hrest
      rw [if_pos hrest, Option.some.inj h]
    · cases h

end TextJson

/-- **What is read of a string as a `Json` is what Python reads of it.** -/
theorem Text.loads_ofString {s : String} {j : Json} (h : Py.loads s = some j) :
    (Text.ofString s).loads = some (Wide.ofJson j) := by
  unfold Py.loads at h
  unfold Text.loads Text.ofString
  by_cases hmark : s.toList.head? = some (Char.ofNat 0xfeff)
  · rw [if_pos hmark] at h
    cases h
  · rw [if_neg hmark] at h
    have hhead : (s.toList.map Point.char).head? ≠ some (.char (Char.ofNat 0xfeff)) := by
      rw [List.head?_map]
      intro heq
      obtain ⟨c, hc, hcode⟩ := Option.map_eq_some_iff.mp heq
      exact hmark (hc.trans (congrArg some (Point.char.inj hcode)))
    rw [if_neg hhead]
    exact TextJson.document_map h

end Py

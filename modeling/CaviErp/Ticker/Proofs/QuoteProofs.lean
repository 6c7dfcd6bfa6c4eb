import CaviErp.Lib.Proofs.InverseProofs
import CaviErp.Lib.Proofs.SchemaProofs
import CaviErp.Ticker.Agent
import CaviErp.Ticker.Proofs.ConversionProofs
import Mathlib

/-!
# Which quotes keep the contract

The payload of a snapshot is valid exactly if the codes are currency codes and the rate is written as a plain
numeral. A rate of the table is, unless its exponent says otherwise; an inverse is, unless it is a whole
multiple of ten, too large or too small.
-/

namespace CaviErp

open Py

/-! ## Rates as texts -/

section Rates

open Decimal JsonText

theorem isDigits_iff (cs : List Char) : isDigits cs = true ↔ Digits cs := by
  unfold isDigits Digits
  rw [Bool.and_eq_true, List.all_eq_true]
  cases cs <;> simp

/-- What the pattern asks of the characters before a last line break. -/
def plainDigits (cs : List Char) : Bool :=
  match cs.dropWhile (· != '.') with
  | [] => isDigits (cs.takeWhile (· != '.'))
  | _ :: fraction => isDigits (cs.takeWhile (· != '.')) && isDigits fraction

theorem decimalPattern_eq (s : String) : decimalPattern s =
    plainDigits (if s.toList.getLast? = some '\n' then s.toList.dropLast else s.toList) := rfl

theorem mem_of_plainDigits {cs : List Char} (hcs : plainDigits cs = true) :
    ∀ c ∈ cs, c.isDigit = true ∨ c = '.' := by
  intro c hc
  rw [← List.takeWhile_append_dropWhile (p := (· != '.')) (l := cs)] at hc
  have hhead := List.head?_dropWhile_not (· != '.') cs
  unfold plainDigits at hcs
  cases hdrop : cs.dropWhile (· != '.') with
  | nil =>
    rw [hdrop] at hcs hc
    rw [List.append_nil] at hc
    exact .inl (((isDigits_iff _).mp hcs).2 c hc)
  | cons p fraction =>
    rw [hdrop] at hcs hc hhead
    rw [Bool.and_eq_true, isDigits_iff, isDigits_iff] at hcs
    have hpoint : p = '.' := by simpa using hhead
    rcases List.mem_append.mp hc with hc | hc
    · exact .inl (hcs.1.2 c hc)
    · rcases List.mem_cons.mp hc with rfl | hc
      · exact .inr hpoint
      · exact .inl (hcs.2.2 c hc)

/-- What matches holds digits and points, and a newline at most at its end. -/
theorem mem_of_decimalPattern {s : String} (h : decimalPattern s = true) :
    ∀ c ∈ s.toList, c.isDigit = true ∨ c = '.' ∨ c = '\n' := by
  rw [decimalPattern_eq] at h
  generalize s.toList = ds at *
  intro c hc
  split at h
  · rename_i hlast
    have hdropLast : ds = ds.dropLast ++ ['\n'] := by
      have hne : ds ≠ [] := by
        rintro rfl
        cases hlast
      rw [List.getLast?_eq_getLast_of_ne_nil hne] at hlast
      rw [← Option.some.inj hlast, List.dropLast_append_getLast hne]
    rw [hdropLast] at hc
    rcases List.mem_append.mp hc with hc | hc
    · exact (mem_of_plainDigits h c hc).imp_right .inl
    · exact .inr (.inr (List.mem_singleton.mp hc))
  · exact (mem_of_plainDigits h c hc).imp_right .inl

theorem decimalPattern_numeral {whole : List Char} {f : Option (List Char)} (hwhole : Digits whole)
    (hf : ∀ ds, f = some ds → Digits ds) :
    decimalPattern (String.ofList (whole ++ fracText f)) = true := by
  have hdigit : ∀ {ds : List Char} {c : Char}, (∀ c ∈ ds, c.isDigit = true) → c.isDigit = false → c ∉ ds := by
    intro ds c hds hc hmem
    rw [hds c hmem] at hc
    cases hc
  have hnewline : '\n' ∉ whole ++ fracText f := by
    rw [List.mem_append]
    rintro (hmem | hmem)
    · exact hdigit hwhole.2 rfl hmem
    · cases f with
      | none => cases hmem
      | some ds =>
        rcases List.mem_cons.mp hmem with hpoint | hmem
        · exact absurd hpoint (by decide)
        · exact hdigit (hf ds rfl).2 rfl hmem
  have hlast : (whole ++ fracText f).getLast? ≠ some '\n' := fun h => hnewline (List.mem_of_getLast? h)
  have hpoint : ∀ c ∈ whole, (c != '.') = true := by
    intro c hc
    rw [bne_iff_ne]
    rintro rfl
    exact hdigit hwhole.2 rfl hc
  rw [decimalPattern_eq, String.toList_ofList, if_neg hlast]
  unfold plainDigits
  cases f with
  | none =>
    have htake : (whole ++ fracText none).takeWhile (· != '.') = whole := by
      rw [fracText, List.append_nil, List.takeWhile_eq_self_iff]
      exact hpoint
    have hdrop : (whole ++ fracText none).dropWhile (· != '.') = [] := by
      rw [fracText, List.append_nil, List.dropWhile_eq_nil_iff]
      exact hpoint
    rw [hdrop, htake]
    exact (isDigits_iff whole).mpr hwhole
  | some ds =>
    have htake : (whole ++ '.' :: ds).takeWhile (· != '.') = whole := by
      rw [List.takeWhile_append_of_pos hpoint]
      simp
    have hdrop : (whole ++ '.' :: ds).dropWhile (· != '.') = '.' :: ds := by
      rw [List.dropWhile_append_of_pos hpoint]
      simp
    have hfrac : whole ++ fracText (some ds) = whole ++ '.' :: ds := rfl
    rw [hfrac, hdrop, htake, Bool.and_eq_true, isDigits_iff, isDigits_iff]
    exact ⟨hwhole, hf ds rfl⟩

/-- The text of a positive number matches exactly if it is positional. -/
theorem decimalPattern_iff (c : Nat) (e : Int) :
    decimalPattern (finite false c e).str = true ↔ Positional c e := by
  constructor
  · intro h
    by_contra hnot
    have hE : 'E' ∈ (finite false c e).str.toList := by
      unfold Decimal.str
      rw [String.toList_ofList]
      exact mem_finiteChars_of_not_positional hnot
    rcases mem_of_decimalPattern h 'E' hE with hdigit | hpoint | hnewline
    · exact absurd hdigit (by decide)
    · exact absurd hpoint (by decide)
    · exact absurd hnewline (by decide)
  · intro h
    obtain ⟨whole, f, htext, hwhole, hf⟩ := finiteChars_positional h
    show decimalPattern (String.ofList (signChars false ++ finiteChars c e)) = true
    rw [htext]
    exact decimalPattern_numeral hwhole hf

end Rates

/-! ## Codes -/

section Codes

open Ticker

theorem isUpper_iff {c : Char} : c.isUpper = true ↔ 65 ≤ c.toNat ∧ c.toNat ≤ 90 := by
  simp only [Char.isUpper, decide_eq_true_eq, ge_iff_le, UInt32.le_iff_toNat_le]
  exact Iff.rfl

theorem isLower_iff {c : Char} : c.isLower = true ↔ 97 ≤ c.toNat ∧ c.toNat ≤ 122 := by
  simp only [Char.isLower, Bool.and_eq_true, decide_eq_true_eq, ge_iff_le, UInt32.le_iff_toNat_le]
  exact Iff.rfl

theorem isUpper_toUpper {c : Char} (h : c.isAlpha = true) : c.toUpper.isUpper = true := by
  unfold Char.isAlpha at h
  rw [Bool.or_eq_true] at h
  unfold Char.toUpper
  split
  · rename_i hlower
    have hlow : 97 ≤ c.val.toNat := hlower.1
    have hhigh : c.val.toNat ≤ 122 := hlower.2
    have hval : (c.val + ('A'.val - 'a'.val)).toNat = c.val.toNat - 32 := by
      rw [UInt32.toNat_add]
      show (c.val.toNat + 4294967264) % 4294967296 = _
      omega
    rw [isUpper_iff]
    show 65 ≤ (c.val + ('A'.val - 'a'.val)).toNat ∧ (c.val + ('A'.val - 'a'.val)).toNat ≤ 90
    rw [hval]
    omega
  · rename_i hnot
    exact h.resolve_right fun hlower => hnot (isLower_iff.mp hlower)

theorem toUpper_of_not_lower {c : Char} (h : ¬ (97 ≤ c.toNat ∧ c.toNat ≤ 122)) : c.toUpper = c := by
  unfold Char.toUpper
  split
  · rename_i hlower
    exact absurd hlower h
  · rfl

theorem toUpper_toUpper (c : Char) : c.toUpper.toUpper = c.toUpper := by
  by_cases hlower : 97 ≤ c.toNat ∧ c.toNat ≤ 122
  · have halpha : c.isAlpha = true := by
      unfold Char.isAlpha
      rw [Bool.or_eq_true]
      exact .inr (isLower_iff.mpr hlower)
    have hupper := isUpper_iff.mp (isUpper_toUpper halpha)
    exact toUpper_of_not_lower (by omega)
  · rw [toUpper_of_not_lower hlower, toUpper_of_not_lower hlower]

theorem upper_upper (code : String) : upper (upper code) = upper code := by
  unfold upper
  rw [String.toList_ofList, List.map_map]
  exact congrArg String.ofList (List.map_congr_left fun c _ => toUpper_toUpper c)

/-- A code of three letters is a currency code in upper case. -/
theorem currencyPattern_upper {code : String} (h : IsCode code) : currencyPattern (upper code) = true := by
  obtain ⟨hlength, hletters⟩ := h
  unfold currencyPattern upper
  rw [String.toList_ofList]
  obtain ⟨a, b, c, hcode⟩ := List.length_eq_three.mp hlength
  rw [hcode] at hletters ⊢
  have ha := isUpper_toUpper (hletters a (by simp))
  have hb := isUpper_toUpper (hletters b (by simp))
  have hc := isUpper_toUpper (hletters c (by simp))
  show (a.toUpper.isUpper && b.toUpper.isUpper && c.toUpper.isUpper) = true
  rw [ha, hb, hc]
  rfl

end Codes

/-! ## What the table answers -/

/-- A positive rate, infinity included. -/
def IsRate (d : Decimal) : Prop := (∃ c e, d = .finite false c e ∧ c ≠ 0) ∨ d = .infinity false

/-- A table of positive rates between codes of three letters. -/
def IsTable (rates : List ((String × String) × Decimal)) : Prop :=
  ∀ r ∈ rates, Ticker.IsCode r.1.1 ∧ Ticker.IsCode r.1.2 ∧ IsRate r.2

namespace StaticRateSource

open Ticker (upper)

theorem mem_of_ofRates {rates : List ((String × String) × Decimal)} {pair : String × String} {d : Decimal}
    (h : (ofRates rates).rates pair = some d) :
    ∃ r ∈ rates, pair = (upper r.1.1, upper r.1.2) ∧ d = r.2 := by
  have hfold : ∀ (l : List ((String × String) × Decimal)) (table : String × String → Option Decimal),
      l.foldl (fun table r => Function.update table (upper r.1.1, upper r.1.2) (some r.2)) table pair = some d →
      (∃ r ∈ l, pair = (upper r.1.1, upper r.1.2) ∧ d = r.2) ∨ table pair = some d := by
    intro l
    induction l with
    | nil => exact fun _ h => .inr h
    | cons r l ih =>
      intro table h
      rcases ih _ h with ⟨r', hr', hpair⟩ | hupdate
      · exact .inl ⟨r', List.mem_cons_of_mem _ hr', hpair⟩
      · dsimp only at hupdate
        rw [Function.update_apply] at hupdate
        split at hupdate
        · rename_i hpair
          exact .inl ⟨r, List.mem_cons_self, hpair, (Option.some.inj hupdate).symm⟩
        · exact .inr hupdate
  rcases hfold rates _ h with hmem | hnone
  · exact hmem
  · cases hnone

theorem answer_cases {source : StaticRateSource} {base quote : String} {d : Decimal}
    (h : source.answer base quote = .ok d) :
    (upper base = upper quote ∧ d = Decimal.ofInt 1) ∨
    (upper base ≠ upper quote ∧ source.rates (upper base, upper quote) = some d) ∨
    (upper base ≠ upper quote ∧ source.rates (upper base, upper quote) = none ∧
      ∃ inverse, source.rates (upper quote, upper base) = some inverse ∧
        (Decimal.ofInt 1).div inverse = .ok d) := by
  unfold answer at h
  dsimp only at h
  split at h
  · rename_i heq
    exact .inl ⟨heq, (Except.ok.inj h).symm⟩
  · rename_i hne
    split at h
    · rename_i rate hrate
      obtain rfl := Except.ok.inj h
      exact .inr (.inl ⟨hne, hrate⟩)
    · rename_i hnone
      split at h
      · rename_i inverse hinverse
        cases hdiv : (Decimal.ofInt 1).div inverse with
        | error e =>
          rw [hdiv] at h
          cases h
        | ok x =>
          rw [hdiv] at h
          obtain rfl := Except.ok.inj h
          exact .inr (.inr ⟨hne, hnone, inverse, hinverse, hdiv⟩)
      · cases h

end StaticRateSource

/-- A rate that is written as a plain numeral. -/
def PlainRate : Decimal → Prop
  | .finite _ c e => Decimal.Positional c e
  | _ => False

/-- A rate the inverse of which is. -/
def PlainInverse : Decimal → Prop
  | .finite _ c e => Decimal.PlainValue (1 / ((c : ℚ) * 10 ^ e))
  | _ => False

/-- A pair whose snapshot keeps the contract: a currency with itself, or a pair of the table with a plain
rate, or the inverse of one with a plain inverse. -/
def Quotable (source : StaticRateSource) (base quote : String) : Prop :=
  if Ticker.upper base = Ticker.upper quote then currencyPattern (Ticker.upper base) = true
  else
    match source.rates (Ticker.upper base, Ticker.upper quote) with
    | some rate => PlainRate rate
    | none =>
      ∀ inverse, source.rates (Ticker.upper quote, Ticker.upper base) = some inverse → PlainInverse inverse

section Answers

open Ticker StaticRateSource

variable {rates : List ((String × String) × Decimal)} {base quote : String} {d : Decimal}

theorem IsTable.codes (htable : IsTable rates) (h : (ofRates rates).rates (base, quote) = some d) :
    currencyPattern base = true ∧ currencyPattern quote = true ∧ IsRate d := by
  obtain ⟨r, hr, hpair, rfl⟩ := mem_of_ofRates h
  obtain ⟨rfl, rfl⟩ := Prod.mk.inj hpair
  obtain ⟨hbase, hquote, hrate⟩ := htable r hr
  exact ⟨currencyPattern_upper hbase, currencyPattern_upper hquote, hrate⟩

theorem decimalPattern_rate_iff {c : Nat} {e : Int} (h : d = .finite false c e ∨ d = .infinity false) :
    decimalPattern d.str = true ↔ PlainRate d := by
  rcases h with rfl | rfl
  · exact decimalPattern_iff c e
  · exact iff_of_false (by decide) not_false

/-- What is answered is a number without a sign, or infinite. -/
theorem answer_unsigned (htable : IsTable rates) (h : (ofRates rates).answer base quote = .ok d) :
    ∃ c e, d = .finite false c e ∨ d = .infinity false := by
  rcases answer_cases h with ⟨-, rfl⟩ | ⟨-, hrate⟩ | ⟨-, -, inverse, hinverse, hdiv⟩
  · exact ⟨1, 0, .inl rfl⟩
  · rcases (htable.codes hrate).2.2 with ⟨c, e, rfl, -⟩ | rfl
    · exact ⟨c, e, .inl rfl⟩
    · exact ⟨0, 0, .inr rfl⟩
  · rcases (htable.codes hinverse).2.2 with ⟨c, e, rfl, hc⟩ | rfl
    · obtain ⟨q, f, rfl, -⟩ := Decimal.inverse_plain_iff hc e hdiv
      exact ⟨q, f, .inl rfl⟩
    · exact ⟨0, Decimal.etiny, .inl (Except.ok.inj hdiv).symm⟩

/-- A snapshot keeps the contract exactly if its pair is one that does. -/
theorem quotable_iff (htable : IsTable rates) (h : (ofRates rates).answer base quote = .ok d) :
    (currencyPattern (upper base) = true ∧ currencyPattern (upper quote) = true ∧
      decimalPattern d.str = true) ↔ Quotable (ofRates rates) base quote := by
  obtain ⟨c, e, hd⟩ := answer_unsigned htable h
  rw [decimalPattern_rate_iff hd]
  unfold Quotable
  rcases answer_cases h with ⟨hsame, rfl⟩ | ⟨hne, hrate⟩ | ⟨hne, hnone, inverse, hinverse, hdiv⟩
  · have hone : PlainRate (Decimal.ofInt 1) := by
      show Decimal.Positional 1 0
      exact ⟨le_rfl, by decide⟩
    rw [if_pos hsame, ← hsame]
    exact ⟨fun h => h.1, fun h => ⟨h, h, hone⟩⟩
  · obtain ⟨hbase, hquote, -⟩ := htable.codes hrate
    rw [if_neg hne, hrate]
    exact ⟨fun h => h.2.2, fun h => ⟨hbase, hquote, h⟩⟩
  · obtain ⟨hquote, hbase, hpositive⟩ := htable.codes hinverse
    have hplain : PlainRate d ↔ PlainInverse inverse := by
      rcases hpositive with ⟨c, e, rfl, hc⟩ | rfl
      · obtain ⟨q, f, rfl, hq⟩ := Decimal.inverse_plain_iff hc e hdiv
        exact hq
      · obtain rfl := Except.ok.inj hdiv
        refine iff_of_false ?_ not_false
        rintro ⟨-, hleft⟩
        exact absurd hleft (by decide)
    rw [if_neg hne, hnone, hplain]
    refine ⟨fun h inverse' h' => ?_, fun h => ⟨hbase, hquote, h inverse hinverse⟩⟩
    obtain rfl := Option.some.inj (hinverse.symm.trans h')
    exact h.2.2

end Answers

/-! ## Payloads -/

namespace TickerAgent

open Schema

theorem valid_snapshot_iff (rate : Rate) :
    tickerPriceV1.valid (.obj (snapshot rate)) = true ↔
      currencyPattern rate.base = true ∧ currencyPattern rate.quote = true ∧
        decimalPattern rate.rate.str = true := by
  simp [tickerPriceV1, snapshot, record, valid, validProps, Keywords.admits, Keywords.objectOk,
    Keywords.stringOk, Keywords.numberOk, JType.admits, Obj.get?, Obj.keys, List.lookup_cons, currency]

theorem valid_converted_iff (rate : Rate) (amount converted : Int) :
    tickerPriceV1.valid (.obj (snapshot rate ++
        [("amount_minor", .int amount), ("converted_minor", .int converted)])) = true ↔
      (currencyPattern rate.base = true ∧ currencyPattern rate.quote = true ∧
        decimalPattern rate.rate.str = true) ∧ 0 ≤ amount ∧ 0 ≤ converted := by
  simp [tickerPriceV1, snapshot, record, valid, validProps, Keywords.admits, Keywords.objectOk,
    Keywords.stringOk, Keywords.numberOk, JType.admits, Obj.get?, Obj.keys, List.lookup_cons, currency, atLeast,
    and_assoc]

/-- An amount is converted unless 28 digits are too few for what it is. -/
theorem convertMinor_returns_iff (rate : Rate) {amount : Int} (hamount : 0 ≤ amount) {c : Nat} {e : Int}
    (h : rate.rate = .finite false c e ∨ rate.rate = .infinity false) :
    (∃ n, rate.convertMinor amount = .ok n) ↔
      ∃ q, rate.rate.toRat? = some q ∧ (amount : ℚ) * q < 10 ^ 28 - 1 / 2 := by
  rcases h with h | h
  · have hcast : ((amount.natAbs * c : Nat) : ℚ) * 10 ^ e = (amount : ℚ) * ((c : ℚ) * 10 ^ e) := by
      have hint : (amount.natAbs : Int) = amount := by omega
      have habs : (amount.natAbs : ℚ) = (amount : ℚ) := by
        rw [← Int.cast_natCast, hint]
      push_cast
      rw [habs]
      ring
    have hvalue : rate.rate.toRat? = some ((c : ℚ) * 10 ^ e) := by
      rw [h]
      rfl
    rw [convertMinor_eq rate amount h, Decimal.toWhole_returns_iff, hcast, hvalue]
    simp
  · have hmul : ∀ s : Bool, Decimal.mul (.finite s amount.natAbs 0) (.infinity false) =
        if amount.natAbs = 0 then .error .invalidOperation else .ok (.infinity (s ^^ false)) := fun _ => rfl
    refine iff_of_false ?_ ?_
    · rintro ⟨n, hn⟩
      unfold Rate.convertMinor Decimal.ofInt at hn
      rw [h, hmul] at hn
      split at hn
      · cases hn
      · cases hn
    · rintro ⟨q, hq, -⟩
      rw [h] at hq
      cases hq

theorem convertMinor_nonneg {rate : Rate} {amount n : Int} (hamount : 0 ≤ amount) {c : Nat} {e : Int}
    (h : rate.rate = .finite false c e ∨ rate.rate = .infinity false)
    (hn : rate.convertMinor amount = .ok n) : 0 ≤ n := by
  obtain ⟨q, hq, -⟩ := (convertMinor_returns_iff rate hamount h).mp ⟨n, hn⟩
  rcases h with h | h
  · rw [convertMinor_eq rate amount h, decide_eq_false (not_lt.mpr hamount)] at hn
    exact Decimal.toWhole_nonneg hn
  · rw [h] at hq
    cases hq

section Payload

variable {rate : Rate} {req : Obj} {c : Nat} {e : Int}

/-- The payload of an answer is valid exactly if its snapshot is. -/
theorem valid_payload_iff (hrate : rate.rate = .finite false c e ∨ rate.rate = .infinity false)
    (hreq : ∀ v, req.get? "amount_minor" = some v → ∃ n : Int, v = .int n ∧ 0 ≤ n) {p : Obj}
    (h : payload rate req = .ok p) :
    tickerPriceV1.valid (.obj p) = true ↔
      currencyPattern rate.base = true ∧ currencyPattern rate.quote = true ∧
        decimalPattern rate.rate.str = true := by
  unfold payload at h
  cases hamount : req.get? "amount_minor" with
  | none =>
    rw [hamount] at h
    obtain rfl := Except.ok.inj h
    exact valid_snapshot_iff rate
  | some v =>
    obtain ⟨n, rfl, hn⟩ := hreq v hamount
    rw [hamount] at h
    cases hconverted : rate.convertMinor n with
    | error error =>
      simp [intOf, Json.toInt, hconverted, Except.mapError, bind, Except.bind] at h
    | ok k =>
      have hp : p = snapshot rate ++ [("amount_minor", .int n), ("converted_minor", .int k)] := by
        simpa [intOf, Json.toInt, hconverted, Except.mapError, bind, Except.bind, pure, Except.pure, eq_comm]
          using h
      rw [hp, valid_converted_iff]
      exact and_iff_left ⟨hn, convertMinor_nonneg hn hrate hconverted⟩

/-- A payload is built unless the amount cannot be converted. -/
theorem payload_returns_iff (hrate : rate.rate = .finite false c e ∨ rate.rate = .infinity false)
    (hreq : ∀ v, req.get? "amount_minor" = some v → ∃ n : Int, v = .int n ∧ 0 ≤ n) :
    (∃ p, payload rate req = .ok p) ↔ ∀ n : Int, req.get? "amount_minor" = some (.int n) →
      ∃ q, rate.rate.toRat? = some q ∧ (n : ℚ) * q < 10 ^ 28 - 1 / 2 := by
  unfold payload
  cases hamount : req.get? "amount_minor" with
  | none => exact iff_of_true ⟨_, rfl⟩ nofun
  | some v =>
    obtain ⟨n, rfl, hn⟩ := hreq v hamount
    have hsome : (∀ m : Int, some (Json.int n) = some (.int m) →
        ∃ q, rate.rate.toRat? = some q ∧ (m : ℚ) * q < 10 ^ 28 - 1 / 2) ↔
          ∃ q, rate.rate.toRat? = some q ∧ (n : ℚ) * q < 10 ^ 28 - 1 / 2 := by
      constructor
      · exact fun h => h n rfl
      · intro h m hm
        obtain rfl := Json.int.inj (Option.some.inj hm)
        exact h
    rw [hsome, ← convertMinor_returns_iff rate hn hrate]
    cases hconverted : rate.convertMinor n with
    | error error =>
      refine iff_of_false ?_ (by rintro ⟨-, ⟨⟩⟩)
      simp [intOf, Json.toInt, hconverted, Except.mapError, bind, Except.bind]
    | ok k =>
      refine iff_of_true ?_ ⟨k, rfl⟩
      simp [intOf, Json.toInt, hconverted, Except.mapError, bind, Except.bind, pure, Except.pure]

end Payload

/-- **Which quotes keep the contract.** Of a table of positive rates between codes of three letters, for a
pair that is resolved and a request with no amount or an amount of zero or more: a valid payload is built
exactly if the pair is a currency with itself, or has a plain rate, or the inverse of one with a plain inverse,
and the converted amount is below 10 ^ 28 by more than a half. For the first reason alone what is built is
valid or not. -/
theorem payload_valid_iff {rates : List ((String × String) × Decimal)} (htable : IsTable rates)
    {base quote : String} {d : Decimal} (hanswer : (StaticRateSource.ofRates rates).answer base quote = .ok d)
    (asOf : ℚ) {req : Obj}
    (hreq : ∀ v, req.get? "amount_minor" = some v → ∃ n : Int, v = .int n ∧ 0 ≤ n) :
    let built := payload ⟨Ticker.upper base, Ticker.upper quote, d, asOf⟩ req
    ((∃ p, built = .ok p ∧ tickerPriceV1.valid (.obj p) = true) ↔
      Quotable (StaticRateSource.ofRates rates) base quote ∧
        ∀ n : Int, req.get? "amount_minor" = some (.int n) →
          ∃ q, d.toRat? = some q ∧ (n : ℚ) * q < 10 ^ 28 - 1 / 2) ∧
    ∀ p, built = .ok p →
      (tickerPriceV1.valid (.obj p) = true ↔ Quotable (StaticRateSource.ofRates rates) base quote) := by
  obtain ⟨c, e, hd⟩ := answer_unsigned htable hanswer
  intro built
  have hvalid : ∀ p, built = .ok p →
      (tickerPriceV1.valid (.obj p) = true ↔ Quotable (StaticRateSource.ofRates rates) base quote) := by
    intro p hp
    rw [valid_payload_iff hd hreq hp]
    exact quotable_iff htable hanswer
  have hreturns : (∃ p, built = .ok p) ↔ ∀ n : Int, req.get? "amount_minor" = some (.int n) →
      ∃ q, d.toRat? = some q ∧ (n : ℚ) * q < 10 ^ 28 - 1 / 2 := payload_returns_iff hd hreq
  refine ⟨?_, hvalid⟩
  rw [← hreturns]
  constructor
  · rintro ⟨p, hp, hpayload⟩
    exact ⟨(hvalid p hp).mp hpayload, p, hp⟩
  · rintro ⟨hquotable, p, hp⟩
    exact ⟨p, hp, (hvalid p hp).mpr hquotable⟩

/-- The demonstration table. -/
def demoRates : List ((String × String) × Decimal) :=
  [(("USD", "EUR"), .finite false 92 (-2)), (("USD", "GBP"), .finite false 79 (-2)),
    (("EUR", "GBP"), .finite false 86 (-2))]

theorem isTable_demoRates : IsTable demoRates := by
  unfold IsTable demoRates
  simp only [List.forall_mem_cons]
  refine ⟨⟨?_, ?_, ?_⟩, ⟨?_, ?_, ?_⟩, ⟨?_, ?_, ?_⟩, nofun⟩
  all_goals first
    | exact ⟨by decide, List.all_eq_true.mp (by decide)⟩
    | exact .inl ⟨_, _, rfl, by decide⟩

/-- A price in dollars, quoted in euros. -/
theorem payload_valid_iff_demo :
    ∃ p, payload ⟨"USD", "EUR", .finite false 92 (-2), 1000⟩ [("amount_minor", .int 12345)] = .ok p ∧
      tickerPriceV1.valid (.obj p) = true := by
  have hanswer : (StaticRateSource.ofRates demoRates).answer "usd" "eur" = .ok (.finite false 92 (-2)) := by
    decide +kernel
  have hreq : ∀ v, Obj.get? [("amount_minor", .int 12345)] "amount_minor" = some v →
      ∃ n : Int, v = .int n ∧ 0 ≤ n := by
    intro v hv
    obtain rfl := Option.some.inj hv
    exact ⟨12345, rfl, by decide⟩
  refine (payload_valid_iff isTable_demoRates hanswer 1000 hreq).1.mpr ⟨?_, ?_⟩
  · show Decimal.Positional 92 (-2)
    exact ⟨by decide, by decide⟩
  · intro n hn
    obtain rfl := Json.int.inj (Option.some.inj hn)
    refine ⟨_, rfl, ?_⟩
    norm_num

/-- The inverse of a rate of 0.05 is written as 2E+1, and the snapshot of it breaks the contract. -/
theorem payload_not_valid :
    (StaticRateSource.ofRates [(("MXN", "USD"), .finite false 5 (-2))]).answer "USD" "MXN" =
        .ok (.finite false 2 1) ∧
      (Decimal.finite false 2 1).str = "2E+1" ∧
      payload ⟨"USD", "MXN", .finite false 2 1, 1000⟩ [] =
        .ok (snapshot ⟨"USD", "MXN", .finite false 2 1, 1000⟩) ∧
      tickerPriceV1.valid (.obj (snapshot ⟨"USD", "MXN", .finite false 2 1, 1000⟩)) = false := by
  refine ⟨by decide +kernel, by decide, rfl, ?_⟩
  rw [Bool.eq_false_iff]
  intro h
  have hpattern := ((valid_snapshot_iff _).mp h).2.2
  exact absurd hpattern (by decide)

/-! ## What is emitted -/

variable {σ : Type} {cache : CacheBackend σ} {ttl : Int} {env : Env} {event : Event} {req : Obj}

/-- A request whose rate is found is answered with the payload of it. -/
theorem handle_of_rate (rt : Runtime) {base quote : String} (hbase : req.get? "base" = some (.str base))
    (hquote : req.get? "quote" = some (.str quote)) {w : World σ} {rate : Rate} {s : Ticker.World σ}
    (hrate : Ticker.getRate cache ttl ⟨base, quote, env.now, env.fetch⟩ w.self = (.ok rate, s)) :
    handle rt cache ttl env event req w =
      match payload rate req with
      | .error e => (.error e, { w with self := s })
      | .ok p => emit rt env (priced env event p) { w with self := s } := by
  have hget : getRate cache ttl env base quote w = (.ok (.ok rate), { w with self := s }) := by
    unfold getRate
    rw [hrate]
  have hb : reqItem req "base" = .ok (.str base) := by
    unfold reqItem item
    dsimp only
    rw [hbase]
    rfl
  have hq : reqItem req "quote" = .ok (.str quote) := by
    unfold reqItem item
    dsimp only
    rw [hquote]
    rfl
  unfold handle
  simp only [Action.bind_apply, Action.ofExcept_apply, hb, hq, textOf, hget]
  cases payload rate req <;> rfl

/-- Over the repository's schemas, with a store and a bus that do not fail, exactly the valid payloads are
emitted. -/
theorem emit_repository_iff (dir : String) (complaint : Schema → Json → String) (sha256 : String → String)
    (henv : env.infra = .healthy) (p : Obj) (w : World σ) :
    (emit (.repository dir complaint sha256) env (priced env event p) w).1 = .ok () ↔
      tickerPriceV1.valid (.obj p) = true := by
  have hget : (SchemaRegistry.repository dir complaint).get "ticker.price" (.int 1) = .ok tickerPriceV1 := rfl
  unfold emit BaseAgent.emit
  rw [henv]
  cases hvalid : tickerPriceV1.valid (.obj p) <;>
    simp [Runtime.repository, priced, SchemaRegistry.validate, hget, hvalid, BaseAgent.recordEvent,
      BaseAgent.publish, Infra.healthy, Except.mapError, bind, Except.bind, Action.raiseIf, Action.modify,
      Action.ofExcept]

/-- A rate that is not in the cache is what the source answers. -/
theorem getRate_of_miss {call : Lookup} {w : Ticker.World σ} {d : Decimal}
    (hmiss : (cache.get (Ticker.cacheKey (Ticker.upper call.base) (Ticker.upper call.quote)) call.now
      w.cache).1 = none)
    (hfetch : call.fetch (Ticker.upper call.base) (Ticker.upper call.quote) = .ok d) :
    (Ticker.getRate cache ttl call w).1 =
      .ok ⟨Ticker.upper call.base, Ticker.upper call.quote, d, call.now⟩ := by
  have hcache : Ticker.cacheGet cache (Ticker.cacheKey (Ticker.upper call.base) (Ticker.upper call.quote))
      call.now w = (.ok none, { w with cache := (cache.get (Ticker.cacheKey (Ticker.upper call.base)
        (Ticker.upper call.quote)) call.now w.cache).2 }) := by
    unfold Ticker.cacheGet
    rw [hmiss]
  have hsource : ∀ w' : Ticker.World σ,
      Ticker.sourceFetch call (Ticker.upper call.base) (Ticker.upper call.quote) w' =
        (.ok d, { w' with fetches := w'.fetches ++
          [⟨Ticker.upper call.base, Ticker.upper call.quote, call.now, .ok d⟩] }) := by
    intro w'
    unfold Ticker.sourceFetch
    rw [hfetch]
    rfl
  unfold Ticker.getRate
  simp only [Action.bind_apply, hcache, hsource]
  rfl

/-- Over the repository's schemas, a request for a pair of the table that is not in the cache is answered
exactly if the pair is quotable and the amount can be converted. -/
theorem handle_returns_iff (dir : String) (complaint : Schema → Json → String) (sha256 : String → String)
    (henv : env.infra = .healthy) {rates : List ((String × String) × Decimal)} (htable : IsTable rates)
    {base quote : String} (hbase : req.get? "base" = some (.str base))
    (hquote : req.get? "quote" = some (.str quote)) {d : Decimal}
    (hanswer : (StaticRateSource.ofRates rates).answer (Ticker.upper base) (Ticker.upper quote) = .ok d)
    (hfetch : env.fetch (Ticker.upper base) (Ticker.upper quote) = .ok d) {w : World σ}
    (hmiss : (cache.get (Ticker.cacheKey (Ticker.upper base) (Ticker.upper quote)) env.now
      w.self.cache).1 = none)
    (hreq : ∀ v, req.get? "amount_minor" = some v → ∃ n : Int, v = .int n ∧ 0 ≤ n) :
    (handle (.repository dir complaint sha256) cache ttl env event req w).1 = .ok () ↔
      Quotable (StaticRateSource.ofRates rates) base quote ∧
        ∀ n : Int, req.get? "amount_minor" = some (.int n) →
          ∃ q, d.toRat? = some q ∧ (n : ℚ) * q < 10 ^ 28 - 1 / 2 := by
  have hsame : Quotable (StaticRateSource.ofRates rates) (Ticker.upper base) (Ticker.upper quote) ↔
      Quotable (StaticRateSource.ofRates rates) base quote := by
    unfold Quotable
    rw [upper_upper, upper_upper]
  obtain ⟨c, e, hd⟩ := answer_unsigned htable hanswer
  have hrate := @getRate_of_miss σ cache ttl ⟨base, quote, env.now, env.fetch⟩ w.self d hmiss hfetch
  let rate : Rate := ⟨Ticker.upper base, Ticker.upper quote, d, env.now⟩
  have hreturns : (∃ p, payload rate req = .ok p) ↔ ∀ n : Int, req.get? "amount_minor" = some (.int n) →
      ∃ q, d.toRat? = some q ∧ (n : ℚ) * q < 10 ^ 28 - 1 / 2 := payload_returns_iff hd hreq
  rw [handle_of_rate _ hbase hquote (Prod.ext hrate rfl), ← hsame, ← quotable_iff htable hanswer, upper_upper,
    upper_upper, ← hreturns]
  cases hpayload : payload ⟨Ticker.upper base, Ticker.upper quote, d, env.now⟩ req with
  | error error => exact iff_of_false nofun (by rintro ⟨-, -, ⟨⟩⟩)
  | ok p =>
    have hvalid : tickerPriceV1.valid (.obj p) = true ↔ currencyPattern rate.base = true ∧
        currencyPattern rate.quote = true ∧ decimalPattern d.str = true := valid_payload_iff hd hreq hpayload
    show (emit (.repository dir complaint sha256) env (priced env event p) _).1 = .ok () ↔ _
    rw [emit_repository_iff dir complaint sha256 henv, hvalid]
    exact (and_iff_left ⟨p, rfl⟩).symm

end TickerAgent

end CaviErp

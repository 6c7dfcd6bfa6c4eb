import CaviErp.Lib.JsonText
import CaviErp.Lib.Proofs.DoubleProofs
import Mathlib.Tactic.IntervalCases

/-!
# Reading back what was written

`json.loads(json.dumps(x))` is `x`, up to items of one key and the decimal text of floats. Each lemma
says what a part of the parser makes of a printed part that stands before some other text.
-/

namespace Py

namespace JsonText

/-! ## Strings -/

theorem hexVal_digitChar {n : Nat} (h : n < 16) : hexVal (Nat.digitChar n) = some n := by
  interval_cases n <;> decide

theorem hexQuad_hex4 {n : Nat} (h : n < 65536) (rest : List Char) :
    hexQuad (hex4 n ++ rest) = some (n, rest) := by
  simp only [hex4, List.cons_append, List.nil_append, hexQuad]
  rw [hexVal_digitChar (Nat.mod_lt _ (by omega)), hexVal_digitChar (Nat.mod_lt _ (by omega)),
    hexVal_digitChar (Nat.mod_lt _ (by omega)), hexVal_digitChar (Nat.mod_lt _ (by omega))]
  have hn : ((n / 4096 % 16 * 16 + n / 256 % 16) * 16 + n / 16 % 16) * 16 + n % 16 = n := by omega
  simp [hn]

theorem escape_basic {c : Char} (h : c.toNat < 0x10000) (rest : List Char) :
    escape ('u' :: (hex4 c.toNat ++ rest)) = some (c, rest) := by
  -- a character is no surrogate
  have hvalid : c.toNat < 0xd800 ∨ 0xdfff < c.toNat ∧ c.toNat < 0x110000 := c.valid
  have hlow : ¬ (0xd800 ≤ c.toNat ∧ c.toNat < 0xdc00) := by omega
  have hhigh : ¬ (0xdc00 ≤ c.toNat ∧ c.toNat < 0xe000) := by omega
  simp only [escape, if_true]
  rw [hexQuad_hex4 (by omega)]
  simp only [Option.bind_eq_bind, Option.bind_some]
  rw [if_neg hlow, if_neg hhigh, Char.ofNat_toNat]
  rfl

theorem escape_pair {c : Char} (h : ¬ c.toNat < 0x10000) (rest : List Char) :
    escape ('u' :: (hex4 (0xd800 + (c.toNat - 0x10000) / 0x400) ++
      '\\' :: 'u' :: (hex4 (0xdc00 + (c.toNat - 0x10000) % 0x400) ++ rest))) = some (c, rest) := by
  have hvalid : c.toNat < 0xd800 ∨ 0xdfff < c.toNat ∧ c.toNat < 0x110000 := c.valid
  obtain ⟨hi, hhi⟩ : ∃ hi, (c.toNat - 0x10000) / 0x400 = hi := ⟨_, rfl⟩
  obtain ⟨lo, hlo⟩ : ∃ lo, (c.toNat - 0x10000) % 0x400 = lo := ⟨_, rfl⟩
  have hc : 0x10000 + hi * 0x400 + lo = c.toNat := by omega
  have hhi' : hi < 0x400 := by omega
  have hlo' : lo < 0x400 := by omega
  rw [hhi, hlo]
  simp only [escape, if_true]
  rw [hexQuad_hex4 (by omega)]
  simp only [Option.bind_eq_bind, Option.bind_some]
  rw [if_pos (by omega)]
  simp only [lowSurrogate]
  rw [hexQuad_hex4 (by omega)]
  simp only [Option.bind_eq_bind, Option.bind_some]
  rw [if_pos (by omega)]
  rw [Nat.add_sub_cancel_left, Nat.add_sub_cancel_left, hc, Char.ofNat_toNat]
  rfl

theorem stringBody_escape {cs rest : List Char} {c : Char} (h : escape cs = some (c, rest)) (n : Nat) :
    stringBody (n + 1) ('\\' :: cs) = (stringBody n rest).map fun r => (c :: r.1, r.2) := by
  rw [stringBody, if_neg (by decide), if_pos rfl, h]
  simp only [Option.bind_eq_bind, Option.bind_some]
  cases stringBody n rest <;> rfl

theorem stringBody_escapeChar (c : Char) (n : Nat) (rest : List Char) :
    stringBody (n + 1) (escapeChar c ++ rest) =
      (stringBody n rest).map fun r => (c :: r.1, r.2) := by
  unfold escapeChar
  split_ifs with hq hb hn hr ht hf hbs hprint hbasic
  · exact stringBody_escape (by rw [hq]; rfl) n
  · exact stringBody_escape (by rw [hb]; rfl) n
  · exact stringBody_escape (by rw [hn]; rfl) n
  · exact stringBody_escape (by rw [hr]; rfl) n
  · exact stringBody_escape (by rw [ht]; rfl) n
  · exact stringBody_escape (by rw [hf]; rfl) n
  · exact stringBody_escape (by rw [hbs]; rfl) n
  · show stringBody (n + 1) (c :: rest) = _
    rw [stringBody, if_neg hq, if_neg hb, if_neg (by omega)]
    cases stringBody n rest <;> rfl
  · exact stringBody_escape (escape_basic hbasic rest) n
  · simp only [List.append_assoc, List.cons_append]
    exact stringBody_escape (escape_pair hbasic rest) n

theorem stringBody_quote {cs : List Char} {n : Nat} (h : cs.length < n) (rest : List Char) :
    stringBody n (cs.flatMap escapeChar ++ '"' :: rest) = some (cs, rest) := by
  induction cs generalizing n with
  | nil =>
    obtain ⟨n, rfl⟩ : ∃ m, n = m + 1 := ⟨n - 1, by omega⟩
    rfl
  | cons c cs ih =>
    obtain ⟨n, rfl⟩ : ∃ m, n = m + 1 := ⟨n - 1, by omega⟩
    rw [List.flatMap_cons, List.append_assoc, stringBody_escapeChar,
      ih (by simpa using Nat.lt_of_succ_lt_succ h)]
    rfl

theorem length_le_flatMap_escapeChar (cs : List Char) :
    cs.length ≤ (cs.flatMap escapeChar).length := by
  have hpos : ∀ c, 1 ≤ (escapeChar c).length := by
    intro c
    unfold escapeChar
    split_ifs <;> simp
  induction cs with
  | nil => simp
  | cons c cs ih =>
    have := hpos c
    simp only [List.flatMap_cons, List.length_append, List.length_cons]
    omega

/-! ## Numbers -/

/-- Text that does not go on with a number. -/
def Stops (rest : List Char) : Prop :=
  ∀ c cs, rest = c :: cs → c.isDigit = false ∧ c ≠ '.' ∧ c ≠ 'e' ∧ c ≠ 'E'

/-- Text that does not go on with a digit. -/
def NoDigit (rest : List Char) : Prop := ∀ c cs, rest = c :: cs → c.isDigit = false

theorem Stops.noDigit {rest : List Char} (h : Stops rest) : NoDigit rest :=
  fun c cs hrest => (h c cs hrest).1

theorem stops_nil : Stops [] := by
  intro c cs h
  cases h

theorem span_digits {ds rest : List Char} (hds : ∀ c ∈ ds, c.isDigit = true) (hrest : NoDigit rest) :
    (ds ++ rest).takeWhile Char.isDigit = ds ∧ (ds ++ rest).dropWhile Char.isDigit = rest := by
  rw [List.takeWhile_append_of_pos hds, List.dropWhile_append_of_pos hds]
  cases rest with
  | nil => simp
  | cons c cs => simp [hrest c cs rfl]

def fracText : Option (List Char) → List Char
  | none => []
  | some ds => '.' :: ds

/-- The text of an exponent with its sign. -/
def expText : Option (Bool × List Char) → List Char
  | none => []
  | some (neg, ds) => 'e' :: (if neg then '-' else '+') :: ds

def Digits (ds : List Char) : Prop := ds ≠ [] ∧ ∀ c ∈ ds, c.isDigit = true

theorem fraction_text {f : Option (List Char)} {rest : List Char} (hf : ∀ ds, f = some ds → Digits ds)
    (hrest : NoDigit rest) (hdot : ∀ cs, rest ≠ '.' :: cs) : fraction (fracText f ++ rest) = (f, rest) := by
  cases f with
  | none =>
    show fraction rest = _
    cases rest with
    | nil => rfl
    | cons c cs =>
      rw [fraction]
      intro cs' h
      exact hdot cs' h
  | some ds =>
    obtain ⟨hne, hall⟩ := hf ds rfl
    obtain ⟨htake, hdrop⟩ := span_digits hall hrest
    show fraction ('.' :: (ds ++ rest)) = _
    simp [fraction, htake, hdrop, hne]

def expValue (x : Bool × List Char) : Int :=
  if x.1 then -(Nat.ofDigitChars 10 x.2 0 : Int) else (Nat.ofDigitChars 10 x.2 0 : Int)

theorem exponentPart_text {x : Option (Bool × List Char)} {rest : List Char}
    (hx : ∀ y, x = some y → Digits y.2) (hrest : Stops rest) :
    exponentPart (expText x ++ rest) = (x.map expValue, rest) := by
  cases x with
  | none =>
    show exponentPart rest = _
    cases rest with
    | nil => rfl
    | cons c cs =>
      obtain ⟨-, -, he, hE⟩ := hrest c cs rfl
      simp [exponentPart, he, hE]
  | some y =>
    obtain ⟨neg, ds⟩ := y
    obtain ⟨hne, hall⟩ := hx _ rfl
    obtain ⟨htake, hdrop⟩ := span_digits hall hrest.noDigit
    cases neg with
    | true =>
      show exponentPart ('e' :: '-' :: (ds ++ rest)) = _
      simp [exponentPart, exponentDigits, htake, hdrop, hne, expValue]
    | false =>
      show exponentPart ('e' :: '+' :: (ds ++ rest)) = _
      simp [exponentPart, exponentDigits, htake, hdrop, hne, expValue]

theorem noDigit_tail {f : Option (List Char)} {x : Option (Bool × List Char)} {rest : List Char}
    (hrest : Stops rest) : NoDigit (fracText f ++ (expText x ++ rest)) := by
  intro c cs h
  cases f with
  | some ds =>
    obtain rfl := (List.cons.inj h).1
    rfl
  | none =>
    cases x with
    | some y =>
      obtain rfl := (List.cons.inj h).1
      rfl
    | none => exact (hrest c cs h).1

theorem noDot_exp {x : Option (Bool × List Char)} {rest : List Char} (hrest : Stops rest)
    (cs : List Char) : expText x ++ rest ≠ '.' :: cs := by
  intro h
  cases x with
  | some y =>
    have := (List.cons.inj h).1
    revert this
    decide
  | none => exact (hrest '.' cs h).2.1 rfl

theorem numberTail_int {rest : List Char} (neg : Bool) (whole : List Char) (hrest : Stops rest) :
    numberTail neg whole rest =
      (.int (if neg then -(Nat.ofDigitChars 10 whole 0 : Int) else (Nat.ofDigitChars 10 whole 0 : Int)),
        rest) := by
  have hfrac : fraction rest = (none, rest) :=
    fraction_text (f := none) (by simp) hrest.noDigit (noDot_exp (x := none) hrest)
  have hexp : exponentPart rest = (none, rest) := exponentPart_text (x := none) (by simp) hrest
  simp [numberTail, hfrac, hexp]

theorem numberTail_float {f : Option (List Char)} {x : Option (Bool × List Char)} {rest : List Char}
    (neg : Bool) (whole : List Char) (hf : ∀ ds, f = some ds → Digits ds)
    (hx : ∀ y, x = some y → Digits y.2) (hsome : f ≠ none ∨ x ≠ none) (hrest : Stops rest) :
    numberTail neg whole (fracText f ++ (expText x ++ rest)) =
      (.float (Binary64.ofDecimal neg (Nat.ofDigitChars 10 (whole ++ f.getD []) 0)
        ((x.map expValue).getD 0 - (f.getD []).length)), rest) := by
  have hnodigit : NoDigit (expText x ++ rest) := noDigit_tail (f := none) hrest
  have hfrac := fraction_text hf hnodigit (noDot_exp hrest)
  have hexp := exponentPart_text hx hrest
  rw [numberTail, hfrac]
  simp only [hexp]
  cases f with
  | some ds => cases x <;> rfl
  | none =>
    cases x with
    | some y => rfl
    | none => simp at hsome

/-- Digits that start with another digit than zero. -/
def Leading (ds : List Char) : Prop :=
  ∃ c cs, ds = c :: cs ∧ c ≠ '0' ∧ c.isDigit = true ∧ ∀ d ∈ cs, d.isDigit = true

/-- A whole part: digits without a superfluous leading zero. -/
def Whole (ds : List Char) : Prop := ds = ['0'] ∨ Leading ds

theorem Whole.head_isDigit {ds : List Char} (h : Whole ds) :
    ∃ c cs, ds = c :: cs ∧ c.isDigit = true := by
  rcases h with rfl | ⟨c, cs, rfl, -, hc, -⟩
  · exact ⟨'0', [], rfl, rfl⟩
  · exact ⟨c, cs, rfl, hc⟩

theorem unsignedNumber_text {whole rest : List Char} (neg : Bool) (h : Whole whole)
    (hrest : NoDigit rest) : unsignedNumber neg (whole ++ rest) = some (numberTail neg whole rest) := by
  rcases h with rfl | ⟨c, cs, rfl, hzero, hc, hcs⟩
  · rfl
  · obtain ⟨htake, hdrop⟩ := span_digits hcs hrest
    rw [List.cons_append, unsignedNumber, if_neg hzero, if_pos hc, htake, hdrop]

theorem isDigit_cases {c : Char} (h : c.isDigit = true) :
    c = '0' ∨ c = '1' ∨ c = '2' ∨ c = '3' ∨ c = '4' ∨ c = '5' ∨ c = '6' ∨ c = '7' ∨ c = '8' ∨ c = '9' := by
  have hrange : 48 ≤ c.toNat ∧ c.toNat ≤ 57 := by
    simpa [Char.isDigit, Char.le_def, UInt32.le_iff_toNat_le] using h
  have hof := Char.ofNat_toNat c
  generalize c.toNat = n at hrange hof
  obtain ⟨hlo, hhi⟩ := hrange
  interval_cases n <;> (subst hof; decide)

theorem scalar_digit {c : Char} (h : c.isDigit = true) (cs : List Char) :
    scalar (c :: cs) = unsignedNumber false (c :: cs) := by
  rcases isDigit_cases h with rfl | rfl | rfl | rfl | rfl | rfl | rfl | rfl | rfl | rfl <;> rfl

theorem scalar_minus {c : Char} (h : c.isDigit = true) (cs : List Char) :
    scalar ('-' :: c :: cs) = unsignedNumber true (c :: cs) := by
  rcases isDigit_cases h with rfl | rfl | rfl | rfl | rfl | rfl | rfl | rfl | rfl | rfl <;> rfl

def signText (neg : Bool) : List Char := if neg then ['-'] else []

theorem scalar_text {whole rest : List Char} (neg : Bool) (h : Whole whole) (hrest : NoDigit rest) :
    scalar (signText neg ++ (whole ++ rest)) = some (numberTail neg whole rest) := by
  rw [← unsignedNumber_text neg h hrest]
  obtain ⟨c, cs, rfl, hc⟩ := h.head_isDigit
  cases neg with
  | true => exact scalar_minus hc _
  | false => exact scalar_digit hc _

theorem leading_toDigits {n : Nat} (hn : n ≠ 0) : Leading (Nat.toDigits 10 n) := by
  -- the last digit is split off, so the induction is on the number
  induction n using Nat.strong_induction_on with
  | _ n ih =>
    by_cases hlt : n < 10
    · rw [Nat.toDigits_of_lt_base hlt]
      have hdigit : n.digitChar ≠ '0' ∧ n.digitChar.isDigit = true := by
        interval_cases n <;> first | exact absurd rfl hn | decide
      exact ⟨n.digitChar, [], rfl, hdigit.1, hdigit.2, by simp⟩
    · obtain ⟨c, cs, hcs, hzero, hc, hall⟩ := ih (n / 10) (by omega) (by omega)
      rw [Nat.toDigits_of_base_le (by omega) (by omega), hcs]
      refine ⟨c, cs ++ [(n % 10).digitChar], rfl, hzero, hc, ?_⟩
      intro d hd
      rcases List.mem_append.mp hd with hd | hd
      · exact hall d hd
      · obtain rfl := List.mem_singleton.mp hd
        have hmod : n % 10 < 10 := Nat.mod_lt _ (by omega)
        generalize n % 10 = m at hmod
        interval_cases m <;> decide

theorem whole_toDigits (n : Nat) : Whole (Nat.toDigits 10 n) := by
  by_cases hn : n = 0
  · left
    rw [hn]
    rfl
  · exact .inr (leading_toDigits hn)

theorem int_text (n : Int) :
    (toString n).toList = signText (decide (n < 0)) ++ Nat.toDigits 10 n.natAbs := by
  cases n with
  | ofNat m =>
    show (Nat.repr m).toList = _
    rw [Nat.toList_repr]
    rfl
  | negSucc m =>
    show ("-" ++ Nat.repr (m + 1)).toList = _
    rw [String.toList_append, Nat.toList_repr, decide_eq_true (Int.negSucc_lt_zero m)]
    rfl

theorem scalar_int (n : Int) {rest : List Char} (hrest : Stops rest) :
    scalar ((toString n).toList ++ rest) = some (.int n, rest) := by
  rw [int_text, List.append_assoc, scalar_text _ (whole_toDigits _) hrest.noDigit,
    numberTail_int _ _ hrest, Nat.ofDigitChars_ten_toDigits]
  have hvalue : (if decide (n < 0) = true then -(n.natAbs : Int) else (n.natAbs : Int)) = n := by
    by_cases hn : n < 0
    · rw [if_pos (decide_eq_true hn)]
      omega
    · rw [if_neg (by simpa using hn)]
      omega
  rw [hvalue]

end JsonText

/-! ## Floats -/

namespace Binary64

open JsonText

/-- The digits of a number other than zero, without its trailing zeros. -/
theorem leading_digits {n : Nat} (hn : n ≠ 0) : Leading (digits n) := by
  obtain ⟨c, cs, hcs, hzero, hc, hall⟩ := leading_toDigits hn
  have hc' : (c == '0') = false := by simpa using hzero
  have hdrop : (c :: cs).reverse.dropWhile (· == '0') = cs.reverse.dropWhile (· == '0') ++ [c] := by
    rw [List.reverse_cons, List.dropWhile_append]
    by_cases hnil : (cs.reverse.dropWhile (· == '0')).isEmpty
    · rw [if_pos hnil, List.isEmpty_iff.mp hnil]
      simp [hc']
    · rw [if_neg hnil]
  refine ⟨c, (cs.reverse.dropWhile (· == '0')).reverse, ?_, hzero, hc, ?_⟩
  · unfold digits
    rw [hcs, hdrop, List.reverse_append]
    rfl
  · intro d hd
    have hmem : d ∈ cs.reverse := (List.dropWhile_sublist _).subset (List.mem_reverse.mp hd)
    exact hall d (List.mem_reverse.mp hmem)

theorem shortest_ne_zero {q : ℚ} (hq : 0 < q) : (shortest q).1 ≠ 0 := by
  unfold shortest
  cases hfind : ((List.range 17).flatMap fun n => candidates q (n + 1)).find? fun c =>
      roundDouble (decimal c.1 c.2) == q with
  | some c =>
    intro hc
    replace hc : c.1 = 0 := hc
    have hround : roundDouble (decimal c.1 c.2) = q := by simpa using List.find?_some hfind
    rw [hc, decimal, Int.cast_zero, zero_mul, roundDouble_zero] at hround
    exact hq.ne hround
  | none =>
    -- the fallback has seventeen digits
    have hlog : (10 : ℚ) ^ Int.log 10 q ≤ q := Int.zpow_log_le_self (by norm_num) hq
    have hpow : (10 : ℚ) ^ (Int.log 10 q - 16) ≤ q :=
      (zpow_le_zpow_right₀ (by norm_num) (by omega)).trans hlog
    have hone : 1 ≤ q / 10 ^ (Int.log 10 q - 16) := by
      rw [le_div_iff₀ (zpow_pos (by norm_num) _), one_mul]
      exact hpow
    have hfloor : 1 ≤ ⌊q / 10 ^ (Int.log 10 q - 16)⌋ := Int.le_floor.mpr (by exact_mod_cast hone)
    have := floor_le_roundHalfEven (q / 10 ^ (Int.log 10 q - 16))
    simp only [Option.getD_none]
    omega

/-- The text of a number without sign that has a fraction or an exponent. -/
structure FloatText (whole : List Char) (f : Option (List Char)) (x : Option (Bool × List Char)) :
    Prop where
  whole : Whole whole
  fraction : ∀ ds, f = some ds → Digits ds
  exponent : ∀ y, x = some y → Digits y.2
  isSome : f ≠ none ∨ x ≠ none

theorem digits_exponent (e : Int) :
    Digits ((if e.natAbs < 10 then ['0'] else []) ++ Nat.toDigits 10 e.natAbs) := by
  refine ⟨by simp [Nat.toDigits_ne_nil], ?_⟩
  intro c hc
  rcases List.mem_append.mp hc with hc | hc
  · split_ifs at hc
    · obtain rfl := List.mem_singleton.mp hc
      rfl
    · cases hc
  · exact Nat.isDigit_of_mem_toDigits (by omega) (by omega) hc

theorem exponent_text (e : Int) :
    'e' :: exponent e = expText (some (decide (e < 0),
      (if e.natAbs < 10 then ['0'] else []) ++ Nat.toDigits 10 e.natAbs)) := by
  simp [exponent, expText]

theorem reprPos_text {q : ℚ} (hq : 0 < q) :
    ∃ whole f x, reprPos q = whole ++ (fracText f ++ expText x) ∧ FloatText whole f x := by
  obtain ⟨c, cs, hds, hzero, hc, hcs⟩ :=
    leading_digits (n := (shortest q).1.natAbs) (by simpa using shortest_ne_zero hq)
  have hall : ∀ d ∈ c :: cs, d.isDigit = true := by
    intro d hd
    rcases List.mem_cons.mp hd with rfl | hd
    · exact hc
    · exact hcs d hd
  unfold reprPos
  simp only [hds]
  generalize ((Nat.toDigits 10 (shortest q).1.natAbs).length : Int) + (shortest q).2 = point
  by_cases hpos : -4 < point ∧ point ≤ 16
  · rw [if_pos hpos]
    by_cases hsmall : point ≤ 0
    · -- `0.00…ds`
      rw [if_pos hsmall]
      refine ⟨['0'], some (List.replicate (-point).toNat '0' ++ (c :: cs)), none, by simp [fracText, expText],
        .inl rfl, ?_, by simp, by simp⟩
      rintro ds ⟨⟩
      refine ⟨by simp, ?_⟩
      intro d hd
      rcases List.mem_append.mp hd with hd | hd
      · rw [List.eq_of_mem_replicate hd]
        rfl
      · exact hall d hd
    · rw [if_neg hsmall]
      by_cases hlong : (c :: cs).length ≤ point.toNat
      · -- `ds…00.0`
        rw [if_pos hlong]
        refine ⟨c :: cs ++ List.replicate (point.toNat - (c :: cs).length) '0', some ['0'], none, rfl,
          .inr ⟨c, cs ++ List.replicate (point.toNat - (c :: cs).length) '0', rfl, hzero, hc, ?_⟩, ?_,
          by simp, by simp⟩
        · intro d hd
          rcases List.mem_append.mp hd with hd | hd
          · exact hcs d hd
          · rw [List.eq_of_mem_replicate hd]
            rfl
        · rintro ds ⟨⟩
          exact ⟨by simp, by simp⟩
      · -- the point falls between two digits
        rw [if_neg hlong]
        obtain ⟨k, hk⟩ : ∃ k, point.toNat = k + 1 := ⟨point.toNat - 1, by omega⟩
        rw [hk] at hlong ⊢
        refine ⟨(c :: cs).take (k + 1), some ((c :: cs).drop (k + 1)), none, by simp [fracText, expText],
          .inr ⟨c, cs.take k, rfl, hzero, hc, fun d hd => hcs d (List.mem_of_mem_take hd)⟩, ?_, by simp,
          by simp⟩
        rintro ds ⟨⟩
        refine ⟨?_, fun d hd => hall d (List.mem_of_mem_drop hd)⟩
        rw [Ne, List.drop_eq_nil_iff]
        exact hlong
  · rw [if_neg hpos, exponent_text]
    obtain ⟨y, hy⟩ : ∃ y, y = (decide (point - 1 < 0),
      (if (point - 1).natAbs < 10 then ['0'] else []) ++ Nat.toDigits 10 (point - 1).natAbs) := ⟨_, rfl⟩
    rw [← hy]
    have hexp : ∀ z, some y = some z → Digits z.2 := by
      rintro z ⟨⟩
      rw [hy]
      exact digits_exponent _
    by_cases hone : (c :: cs).length = 1
    · -- `dE±xx`
      rw [if_pos hone]
      exact ⟨[c], none, some y, by simp [fracText], .inr ⟨c, [], rfl, hzero, hc, by simp⟩, by simp, hexp,
        .inr (by simp)⟩
    · -- `d.dddE±xx`
      rw [if_neg hone]
      refine ⟨[c], some cs, some y, by simp [fracText], .inr ⟨c, [], rfl, hzero, hc, by simp⟩, ?_, hexp,
        .inl (by simp)⟩
      rintro ds ⟨⟩
      refine ⟨?_, hcs⟩
      rintro rfl
      simp at hone

theorem scalar_floatText {whole : List Char} {f : Option (List Char)} {x : Option (Bool × List Char)}
    (neg : Bool) (h : FloatText whole f x) :
    ∃ y, ∀ rest, Stops rest →
      scalar (signText neg ++ (whole ++ (fracText f ++ expText x)) ++ rest) = some (.float y, rest) := by
  refine ⟨Binary64.ofDecimal neg (Nat.ofDigitChars 10 (whole ++ f.getD []) 0)
    ((x.map expValue).getD 0 - (f.getD []).length), fun rest hrest => ?_⟩
  rw [List.append_assoc, List.append_assoc, List.append_assoc,
    scalar_text neg h.whole (noDigit_tail hrest),
    numberTail_float neg whole h.fraction h.exponent h.isSome hrest]

theorem zero_text : FloatText ['0'] (some ['0']) none := by
  refine ⟨.inl rfl, ?_, by simp, by simp⟩
  rintro ds ⟨⟩
  exact ⟨by simp, by simp⟩

theorem jsonChars_neg {q : ℚ} (h : q < 0) : jsonChars (.finite q) = '-' :: reprPos (-q) := by
  unfold jsonChars
  simp only
  rw [if_neg h.ne, if_pos h]

theorem jsonChars_pos {q : ℚ} (h : 0 < q) : jsonChars (.finite q) = reprPos q := by
  unfold jsonChars
  simp only
  rw [if_neg h.ne', if_neg h.le.not_gt]

theorem jsonChars_finite_text (q : ℚ) :
    ∃ neg whole f x, jsonChars (.finite q) = signText neg ++ (whole ++ (fracText f ++ expText x)) ∧
      FloatText whole f x := by
  rcases lt_trichotomy q 0 with hneg | rfl | hpos
  · rw [jsonChars_neg hneg]
    obtain ⟨whole, f, x, htext, h⟩ := reprPos_text (q := -q) (by linarith)
    refine ⟨true, whole, f, x, ?_, h⟩
    rw [htext]
    rfl
  · exact ⟨false, ['0'], some ['0'], none, rfl, zero_text⟩
  · rw [jsonChars_pos hpos]
    obtain ⟨whole, f, x, htext, h⟩ := reprPos_text hpos
    refine ⟨false, whole, f, x, ?_, h⟩
    rw [htext]
    rfl

theorem scalar_jsonChars (x : Binary64) :
    ∃ y, ∀ rest, Stops rest → scalar (x.jsonChars ++ rest) = some (.float y, rest) := by
  cases x with
  | finite q =>
    obtain ⟨neg, whole, f, x, htext, h⟩ := jsonChars_finite_text q
    rw [htext]
    exact scalar_floatText neg h
  | negZero =>
    have htext : jsonChars .negZero =
      signText true ++ (['0'] ++ (fracText (some ['0']) ++ expText none)) := rfl
    rw [htext]
    exact scalar_floatText true zero_text
  | inf => exact ⟨.inf, fun _ _ => rfl⟩
  | negInf => exact ⟨.negInf, fun _ _ => rfl⟩
  | nan => exact ⟨.nan, fun _ _ => rfl⟩

theorem scalar_reread (x : Binary64) {rest : List Char} (hrest : Stops rest) :
    scalar (x.jsonChars ++ rest) = some (.float x.reread, rest) := by
  obtain ⟨y, hy⟩ := scalar_jsonChars x
  have hself : x.reread = y := by
    have := hy [] stops_nil
    rw [List.append_nil] at this
    rw [reread, this]
  rw [hself]
  exact hy rest hrest

end Binary64

/-! ## Values -/

namespace JsonText

theorem skipWs_cons {c : Char} (h : isWs c = false) (cs : List Char) : skipWs (c :: cs) = c :: cs := by
  simp [skipWs, h]

/-- Whitespace that may stand before a value. -/
def Blank (ws : List Char) : Prop := ∀ cs, skipWs (ws ++ cs) = skipWs cs

/-- A text that starts a value, seen from its first character. -/
def Starts (cs : List Char) : Prop :=
  ∃ c rest, cs = c :: rest ∧ isWs c = false ∧ c ≠ ']' ∧ c.toNat < 128

/-- A text that starts a value other than a string, an array or an object. -/
def StartsScalar (cs : List Char) : Prop :=
  ∃ c rest, cs = c :: rest ∧ (isWs c = false ∧ c ≠ ']' ∧ c.toNat < 128) ∧ c ≠ '"' ∧ c ≠ '{' ∧ c ≠ '['

theorem number_head {whole : List Char} (neg : Bool) (h : Whole whole) (rest : List Char) :
    ∃ c cs, signText neg ++ (whole ++ rest) = c :: cs ∧ (c = '-' ∨ c.isDigit = true) := by
  obtain ⟨c, cs, rfl, hc⟩ := h.head_isDigit
  cases neg with
  | true => exact ⟨'-', c :: cs ++ rest, rfl, .inl rfl⟩
  | false => exact ⟨c, cs ++ rest, rfl, .inr hc⟩

theorem startsScalar_number {whole : List Char} (neg : Bool) (h : Whole whole) (rest : List Char) :
    StartsScalar (signText neg ++ (whole ++ rest)) := by
  obtain ⟨c, cs, hcs, hc⟩ := number_head neg h rest
  refine ⟨c, cs, hcs, ?_⟩
  rcases hc with rfl | hc
  · decide
  · rcases isDigit_cases hc with rfl | rfl | rfl | rfl | rfl | rfl | rfl | rfl | rfl | rfl <;> decide

theorem startsScalar_float (x : Binary64) : StartsScalar x.jsonChars := by
  cases x with
  | finite q =>
    obtain ⟨neg, whole, f, x, htext, h⟩ := Binary64.jsonChars_finite_text q
    rw [htext]
    exact startsScalar_number neg h.whole _
  | negZero => exact ⟨'-', ['0', '.', '0'], rfl, by decide⟩
  | inf => exact ⟨'I', "nfinity".toList, rfl, by decide⟩
  | negInf => exact ⟨'-', "Infinity".toList, rfl, by decide⟩
  | nan => exact ⟨'N', "aN".toList, rfl, by decide⟩

theorem startsScalar_int (n : Int) : StartsScalar (toString n).toList := by
  rw [int_text, ← List.append_nil (Nat.toDigits 10 n.natAbs)]
  exact startsScalar_number _ (whole_toDigits _) []

theorem StartsScalar.starts {cs : List Char} (h : StartsScalar cs) : Starts cs := by
  obtain ⟨c, rest, rfl, hstart, -⟩ := h
  exact ⟨c, rest, rfl, hstart⟩

theorem starts_dump (st : DumpStyle) (j : Json) : Starts (dumpChars st j) := by
  cases j with
  | null => exact ⟨'n', "ull".toList, rfl, by decide⟩
  | bool b =>
    cases b with
    | true => exact ⟨'t', "rue".toList, rfl, by decide⟩
    | false => exact ⟨'f', "alse".toList, rfl, by decide⟩
  | int n => exact (startsScalar_int n).starts
  | float x => exact (startsScalar_float x).starts
  | str s => exact ⟨'"', _, rfl, by decide⟩
  | arr xs => exact ⟨'[', _, rfl, by decide⟩
  | obj kvs => exact ⟨'{', _, rfl, by decide⟩

theorem value_scalar {cs rest : List Char} {j : Json} {n : Nat} (h : StartsScalar cs)
    (hn : cs.length ≤ n) (hscalar : scalar (cs ++ rest) = some (j, rest)) :
    value n (cs ++ rest) = some (j, rest) := by
  obtain ⟨c, cs, rfl, -, hq, ho, ha⟩ := h
  obtain ⟨n, rfl⟩ : ∃ m, n = m + 1 := ⟨n - 1, by simp at hn; omega⟩
  rw [List.cons_append, value, if_neg hq, if_neg ho, if_neg ha]
  exact hscalar

theorem value_quote (s : String) {n : Nat} (hn : (quote s).length ≤ n) (rest : List Char) :
    value n (quote s ++ rest) = some (.str s, rest) := by
  have hlen := length_le_flatMap_escapeChar s.toList
  simp only [quote, List.length_append, List.length_cons, List.length_nil] at hn
  obtain ⟨n, rfl⟩ : ∃ m, n = m + 1 := ⟨n - 1, by omega⟩
  have htext : quote s ++ rest = '"' :: (s.toList.flatMap escapeChar ++ '"' :: rest) := by
    simp [quote]
  rw [htext, value, if_pos rfl, stringBody_quote (by omega)]
  simp

/-- `json.dumps` with the order of the items kept and whitespace after the separators. -/
def spaced (a b : List Char) : DumpStyle := ⟨false, ',' :: a, ':' :: b⟩

section Spaced

variable {a b : List Char}

variable (a b) in
def itemText (k : String) (v : Json) : List Char :=
  quote k ++ (':' :: b ++ dumpChars (spaced a b) v)

variable (a b) in
def itemTexts : Obj → List (List Char)
  | [] => []
  | (k, v) :: kvs => itemText a b k v :: itemTexts kvs

theorem dump_obj (kvs : Obj) :
    dumpChars (spaced a b) (.obj kvs) = '{' :: (Json.joinChars (',' :: a) (itemTexts a b kvs) ++ ['}']) := by
  have hitems : (dumpItems (spaced a b) kvs).map (fun kv => quote kv.1 ++ (':' :: b) ++ kv.2) =
      itemTexts a b kvs := by
    induction kvs with
    | nil => rfl
    | cons kv kvs ih =>
      obtain ⟨k, v⟩ := kv
      rw [dumpItems, List.map_cons, ih, itemTexts, itemText, List.append_assoc]
  show '{' :: Json.joinChars (',' :: a) ((dumpItems (spaced a b) kvs).map _) ++ ['}'] = _
  rw [← hitems]
  rfl

theorem starts_elements (x : Json) (xs : List Json) :
    Starts (Json.joinChars (',' :: a) (dumpList (spaced a b) (x :: xs))) := by
  obtain ⟨c, cs, hcs, h⟩ := starts_dump (spaced a b) x
  cases xs with
  | nil => exact ⟨c, cs, hcs, h⟩
  | cons y ys =>
    refine ⟨c, cs ++ ((',' :: a) ++ Json.joinChars (',' :: a) (dumpList (spaced a b) (y :: ys))), ?_, h⟩
    simp [dumpList, Json.joinChars, hcs]

theorem starts_items (k : String) (v : Json) (kvs : Obj) :
    ∃ cs, Json.joinChars (',' :: a) (itemTexts a b ((k, v) :: kvs)) = '"' :: cs := by
  cases kvs with
  | nil => exact ⟨_, rfl⟩
  | cons kv kvs => exact ⟨_, rfl⟩

/-- The first member of an object, when its value is read as expected. -/
theorem members_item {k : String} {v w : Json} {n : Nat} {rest : List Char}
    (hb : Blank b) (hn : (itemText a b k v).length ≤ n)
    (hvalue : value n (dumpChars (spaced a b) v ++ rest) = some (w, rest)) :
    members (n + 1) (itemText a b k v ++ rest) =
      match skipWs rest with
      | '}' :: rest => some ([(k, w)], rest)
      | ',' :: rest => (members n (skipWs rest)).map fun r => ((k, w) :: r.1, r.2)
      | _ => none := by
  have hlen := length_le_flatMap_escapeChar k.toList
  simp only [itemText, quote, List.length_append, List.length_cons, List.length_nil] at hn
  have htext : itemText a b k v ++ rest =
      '"' :: (k.toList.flatMap escapeChar ++ '"' :: ':' :: (b ++ (dumpChars (spaced a b) v ++ rest))) := by
    simp [itemText, quote]
  obtain ⟨c, cs, hcs, hws, -⟩ := starts_dump (spaced a b) v
  rw [htext, members, if_pos rfl, stringBody_quote (by omega)]
  simp only [skipWs_cons (show isWs ':' = false by decide), hb _]
  rw [hcs, List.cons_append] at hvalue ⊢
  rewrite [skipWs_cons hws, hvalue, String.ofList_toList]
  rfl

theorem stops_close {c : Char} (h : c = ',' ∨ c = ']' ∨ c = '}') (cs : List Char) : Stops (c :: cs) := by
  intro d ds hd
  obtain ⟨rfl, -⟩ := List.cons.inj hd
  rcases h with rfl | rfl | rfl <;> decide

mutual

/-- A written value is read back, wherever it stands. -/
theorem value_dump (ha : Blank a) (hb : Blank b) : ∀ (j : Json) {n : Nat} {r : List Char},
    (dumpChars (spaced a b) j).length ≤ n →
    Stops r → value n (dumpChars (spaced a b) j ++ r) = some (j.reread, r)
  | .null, _, _, hn, _ => value_scalar ⟨'n', "ull".toList, rfl, by decide⟩ hn rfl
  | .bool true, _, _, hn, _ => value_scalar ⟨'t', "rue".toList, rfl, by decide⟩ hn rfl
  | .bool false, _, _, hn, _ => value_scalar ⟨'f', "alse".toList, rfl, by decide⟩ hn rfl
  | .int n, _, _, hn, hrest => value_scalar (startsScalar_int n) hn (scalar_int n hrest)
  | .float x, _, _, hn, hrest => value_scalar (startsScalar_float x) hn (x.scalar_reread hrest)
  | .str s, _, rest, hn, _ => value_quote s hn rest
  | .arr [], n, rest, hn, _ => by
    obtain ⟨n, rfl⟩ : ∃ m, n = m + 1 := ⟨n - 1, by simp [dumpChars] at hn; omega⟩
    rfl
  | .arr (x :: xs), n, rest, hn, _ => by
    obtain ⟨c, cs, hcs, hws, hbracket, -⟩ := starts_elements x xs
    have hdump : dumpChars (spaced a b) (.arr (x :: xs)) =
      '[' :: (Json.joinChars (',' :: a) (dumpList (spaced a b) (x :: xs)) ++ [']']) := rfl
    rw [hdump, List.length_cons, List.length_append, List.length_singleton] at hn
    obtain ⟨n, rfl⟩ : ∃ m, n = m + 1 := ⟨n - 1, by omega⟩
    have helems := elements_dump ha hb (x :: xs) (n := n) (r := rest) (by simp) (by omega)
    rw [hdump, List.cons_append, List.append_assoc, List.singleton_append, value,
      if_neg (by decide), if_neg (by decide), if_pos rfl]
    rw [hcs, List.cons_append, skipWs_cons hws]
    rw [hcs, List.cons_append] at helems
    split
    · next heq => exact absurd (List.cons.inj heq).1 hbracket
    · rw [helems]
      rfl
  | .obj [], n, rest, hn, _ => by
    obtain ⟨n, rfl⟩ : ∃ m, n = m + 1 := ⟨n - 1, by simp [dumpChars] at hn; omega⟩
    rfl
  | .obj ((k, v) :: kvs), n, rest, hn, _ => by
    obtain ⟨cs, hcs⟩ := starts_items k v kvs
    rw [dump_obj] at hn ⊢
    rw [List.length_cons, List.length_append, List.length_singleton] at hn
    obtain ⟨n, rfl⟩ : ∃ m, n = m + 1 := ⟨n - 1, by omega⟩
    have hmembers := members_dump ha hb ((k, v) :: kvs) (n := n) (r := rest) (by simp) (by omega)
    rw [List.cons_append, List.append_assoc, List.singleton_append, value, if_neg (by decide), if_pos rfl]
    rw [hcs, List.cons_append, skipWs_cons (by decide)]
    rw [hcs, List.cons_append] at hmembers
    split
    · next heq => exact absurd (List.cons.inj heq).1 (by decide)
    · rw [hmembers]
      rfl

theorem elements_dump (ha : Blank a) (hb : Blank b) : ∀ (xs : List Json) {n : Nat} {r : List Char}, xs ≠ [] →
    (Json.joinChars (',' :: a) (dumpList (spaced a b) xs)).length + 1 ≤ n →
      elements n (Json.joinChars (',' :: a) (dumpList (spaced a b) xs) ++ ']' :: r) =
        some (Json.rereadList xs, r)
  | [], _, _, hne, _ => absurd rfl hne
  | [x], n, rest, _, hn => by
    obtain ⟨n, rfl⟩ : ∃ m, n = m + 1 := ⟨n - 1, by omega⟩
    have hvalue := value_dump ha hb x (n := n) (r := ']' :: rest) (by simpa [dumpList, Json.joinChars] using hn)
      (stops_close (by simp) rest)
    simp only [dumpList, Json.joinChars]
    rw [elements, hvalue]
    rfl
  | x :: y :: ys, n, rest, _, hn => by
    obtain ⟨c, cs, hcs, hws, -⟩ := starts_elements y ys
    obtain ⟨n, rfl⟩ : ∃ m, n = m + 1 := ⟨n - 1, by omega⟩
    have hjoin : Json.joinChars (',' :: a) (dumpList (spaced a b) (x :: y :: ys)) =
        dumpChars (spaced a b) x ++ (',' :: (a ++ Json.joinChars (',' :: a) (dumpList (spaced a b) (y :: ys)))) := by
      simp [dumpList, Json.joinChars]
    rw [hjoin] at hn ⊢
    simp only [List.length_append, List.length_cons] at hn
    have hvalue := value_dump ha hb x (n := n)
      (r := ',' :: (a ++ (Json.joinChars (',' :: a) (dumpList (spaced a b) (y :: ys)) ++ ']' :: rest)))
      (by omega) (stops_close (by simp) _)
    have helems := elements_dump ha hb (y :: ys) (n := n) (r := rest) (by simp) (by omega)
    rw [List.append_assoc, List.cons_append, List.append_assoc, elements, hvalue]
    simp only [skipWs_cons (show isWs ',' = false by decide), ha _]
    rw [hcs, List.cons_append, skipWs_cons hws]
    rw [hcs, List.cons_append] at helems
    rw [helems]
    rfl

theorem members_dump (ha : Blank a) (hb : Blank b) : ∀ (kvs : Obj) {n : Nat} {r : List Char}, kvs ≠ [] →
    (Json.joinChars (',' :: a) (itemTexts a b kvs)).length + 1 ≤ n →
      members n (Json.joinChars (',' :: a) (itemTexts a b kvs) ++ '}' :: r) =
        some (Json.rereadItems kvs, r)
  | [], _, _, hne, _ => absurd rfl hne
  | [(k, v)], n, rest, _, hn => by
    obtain ⟨n, rfl⟩ : ∃ m, n = m + 1 := ⟨n - 1, by omega⟩
    replace hn : (itemText a b k v).length ≤ n := by simpa [itemTexts, Json.joinChars] using hn
    have hvalue := value_dump ha hb v (n := n) (r := '}' :: rest) (by simp [itemText] at hn; omega)
      (stops_close (by simp) rest)
    show members (n + 1) (itemText a b k v ++ '}' :: rest) = _
    rw [members_item hb hn hvalue]
    rfl
  | (k, v) :: (k', v') :: kvs, n, rest, _, hn => by
    obtain ⟨cs, hcs⟩ := starts_items k' v' kvs
    obtain ⟨n, rfl⟩ : ∃ m, n = m + 1 := ⟨n - 1, by omega⟩
    have hjoin : Json.joinChars (',' :: a) (itemTexts a b ((k, v) :: (k', v') :: kvs)) =
        itemText a b k v ++ (',' :: (a ++ Json.joinChars (',' :: a) (itemTexts a b ((k', v') :: kvs)))) := by
      simp [itemTexts, Json.joinChars]
    rw [hjoin] at hn ⊢
    simp only [List.length_append, List.length_cons] at hn
    have hvalue := value_dump ha hb v (n := n)
      (r := ',' :: (a ++ (Json.joinChars (',' :: a) (itemTexts a b ((k', v') :: kvs)) ++ '}' :: rest)))
      (by simp [itemText] at hn; omega) (stops_close (by simp) _)
    have hmembers := members_dump ha hb ((k', v') :: kvs) (n := n) (r := rest) (by simp) (by omega)
    rw [List.append_assoc, List.cons_append, List.append_assoc, members_item hb (by omega) hvalue]
    simp only [skipWs_cons (show isWs ',' = false by decide), ha _]
    rw [hcs, List.cons_append, skipWs_cons (by decide)]
    rw [hcs, List.cons_append] at hmembers
    rw [hmembers]
    rfl

end

end Spaced

end JsonText

open JsonText

/-- `str(x)` of a number starts with a digit or a minus sign, unless the number is no finite one. -/
theorem int_head (n : Int) : ∃ c cs, (toString n).toList = c :: cs ∧ (c = '-' ∨ c.isDigit = true) := by
  rw [int_text, ← List.append_nil (Nat.toDigits 10 n.natAbs)]
  exact number_head _ (whole_toDigits _) []

theorem float_head (x : Binary64) :
    ∃ c cs, x.str.toList = c :: cs ∧ (c = '-' ∨ c.isDigit = true ∨ c = 'i' ∨ c = 'n') := by
  cases x with
  | finite q =>
    obtain ⟨neg, whole, f, x, htext, h⟩ := Binary64.jsonChars_finite_text q
    obtain ⟨c, cs, hcs, hc⟩ := number_head neg h.whole (fracText f ++ expText x)
    refine ⟨c, cs, ?_, ?_⟩
    · show (String.ofList (Binary64.jsonChars (.finite q))).toList = _
      rw [String.toList_ofList, htext, hcs]
    · exact hc.imp_right .inl
  | negZero => exact ⟨'-', ['0', '.', '0'], rfl, by decide⟩
  | inf => exact ⟨'i', ['n', 'f'], rfl, by decide⟩
  | negInf => exact ⟨'-', ['i', 'n', 'f'], rfl, by decide⟩
  | nan => exact ⟨'n', ['a', 'n'], rfl, by decide⟩

/-- How `str(x)` can start where `x` is no string. -/
def nonStringHeads : List Char := "-0123456789inNTF[\x7b".toList

theorem mem_nonStringHeads_of_isDigit {c : Char} (h : c.isDigit = true) : c ∈ nonStringHeads := by
  rcases isDigit_cases h with rfl | rfl | rfl | rfl | rfl | rfl | rfl | rfl | rfl | rfl <;> decide

theorem pyStr_head {j : Json} (h : ∀ s, j ≠ .str s) :
    ∃ c cs, j.pyStr.toList = c :: cs ∧ c ∈ nonStringHeads := by
  cases j with
  | null => exact ⟨'N', "one".toList, rfl, by decide⟩
  | bool b =>
    cases b with
    | true => exact ⟨'T', "rue".toList, rfl, by decide⟩
    | false => exact ⟨'F', "alse".toList, rfl, by decide⟩
  | int n =>
    obtain ⟨c, cs, hcs, hc⟩ := int_head n
    refine ⟨c, cs, ?_, ?_⟩
    · show (String.ofList (toString n).toList).toList = _
      rw [String.toList_ofList, hcs]
    · rcases hc with rfl | hc
      · decide
      · exact mem_nonStringHeads_of_isDigit hc
  | float x =>
    obtain ⟨c, cs, hcs, hc⟩ := float_head x
    refine ⟨c, cs, ?_, ?_⟩
    · show (String.ofList x.str.toList).toList = _
      rw [String.toList_ofList, hcs]
    · rcases hc with rfl | hc | rfl | rfl
      · decide
      · exact mem_nonStringHeads_of_isDigit hc
      · decide
      · decide
  | str s => exact absurd rfl (h s)
  | arr xs =>
    refine ⟨'[', Json.joinChars ", ".toList (Json.reprList xs) ++ [']'], ?_, by decide⟩
    show (String.ofList (Json.repr (.arr xs))).toList = _
    rw [String.toList_ofList]
    rfl
  | obj kvs =>
    refine ⟨'{', Json.joinChars ", ".toList (Json.reprItems kvs) ++ ['}'], ?_, by decide⟩
    show (String.ofList (Json.repr (.obj kvs))).toList = _
    rw [String.toList_ofList]
    rfl

theorem pyStr_ne_empty {j : Json} (h : j.truthy = true) : j.pyStr ≠ "" := by
  by_cases hs : ∃ s, j = .str s
  · obtain ⟨s, rfl⟩ := hs
    exact bne_iff_ne.mp h
  · obtain ⟨c, cs, hcs, -⟩ := pyStr_head fun s heq => hs ⟨s, heq⟩
    intro hempty
    rw [hempty] at hcs
    cases hcs

theorem JsonText.loads_spaced {a b : List Char} (ha : Blank a) (hb : Blank b) (j : Json) :
    loads (dumps (spaced a b) j) = some j.reread := by
  obtain ⟨c, cs, hcs, hws, -, hascii⟩ := starts_dump (spaced a b) j
  have hvalue := value_dump ha hb j (n := (dumpChars (spaced a b) j).length + 1) (r := []) (by omega)
    stops_nil
  rw [List.append_nil] at hvalue
  -- the text does not start with a byte order mark, and not with whitespace
  have hbom : (c :: cs).head? ≠ some (Char.ofNat 0xfeff) := by
    intro h
    obtain rfl : c = Char.ofNat 0xfeff := by simpa using h
    exact absurd hascii (by decide)
  have hskip : skipWs (dumpChars (spaced a b) j) = dumpChars (spaced a b) j := by
    rw [hcs, skipWs_cons hws]
  unfold loads dumps document
  rw [String.toList_ofList, hskip, hvalue, hcs, if_neg hbom]
  rfl

/-- `json.loads(json.dumps(x))`. -/
theorem loads_dumps (j : Json) : loads (dumps .default j) = some j.reread :=
  loads_spaced (a := [' ']) (b := [' ']) (fun _ => rfl) (fun _ => rfl) j

end Py

import CaviErp.Lib.Dict
import CaviErp.Lib.Js
import CaviErp.Lib.Proofs.JsonTextProofs
import Mathlib.Data.List.TakeWhile
import Mathlib.Tactic.Positivity
import Mathlib.Tactic.Linarith

/-!
# Integers in a script

An integer of at most 53 bits is a double itself, its text in a script is the one Python writes, and
`JSON.stringify` gives it back.
-/

namespace Py.Binary64

/-! ## Rounding integers -/

/-- An integer of at most 53 bits is a double. -/
theorem roundDouble_natCast {n : Nat} (hpos : 0 < n) (h : n < 2 ^ 53) : roundDouble n = n := by
  have habs : |(n : Int)| < 2 ^ 53 := by
    rw [Nat.abs_cast]
    exact_mod_cast h
  have hdouble : IsDouble ((n : Int) : ℚ) := isDouble_intCast habs
  rw [Int.cast_natCast] at hdouble
  exact hdouble.roundDouble_eq_self (by exact_mod_cast hpos)

/-- Rounding does not lead below a power of two. -/
theorem two_pow_le_roundDouble {q : ℚ} (h : 2 ^ 53 ≤ q) : 2 ^ 53 ≤ roundDouble q := by
  have hdouble : IsDouble (2 ^ 53) := ⟨1, 53, by norm_num, by omega, by omega, by norm_num⟩
  calc (2 : ℚ) ^ 53 = roundDouble (2 ^ 53) := (hdouble.roundDouble_eq_self (by norm_num)).symm
    _ ≤ roundDouble q := roundDouble_mono (by norm_num) h

/-! ## Their digits -/

theorem log_ten_natCast {n : Nat} (hpos : 0 < n) (h : n < 2 ^ 53) :
    0 ≤ Int.log 10 (n : ℚ) ∧ Int.log 10 (n : ℚ) < 16 := by
  have hposQ : (0 : ℚ) < n := by exact_mod_cast hpos
  refine ⟨?_, ?_⟩
  · refine (Int.zpow_le_iff_le_log (b := 10) (by norm_num) hposQ).mp ?_
    rw [zpow_zero]
    exact_mod_cast hpos
  · refine (Int.lt_zpow_iff_log_lt (b := 10) (by norm_num) hposQ).mp ?_
    have hlt : n < 10 ^ 16 := h.trans (by norm_num)
    exact_mod_cast hlt

/-- An integer that rounds to one of at most 53 bits is that one. -/
theorem eq_of_roundDouble_eq {m : Int} {n : Nat} (hpos : 0 < n) (h : n < 2 ^ 53)
    (hround : roundDouble m = n) : m = n := by
  have hposQ : (0 : ℚ) < n := by exact_mod_cast hpos
  have hmpos : 0 < m := by
    by_contra hle
    have hnonpos : roundDouble m ≤ 0 := roundDouble_nonpos (by exact_mod_cast not_lt.mp hle)
    exact absurd hnonpos (not_le.mpr (hround ▸ hposQ))
  obtain ⟨k, rfl⟩ : ∃ k : Nat, m = k := ⟨m.toNat, by omega⟩
  have hk : k < 2 ^ 53 := by
    by_contra hle
    have hge : (2 : ℚ) ^ 53 ≤ roundDouble ((k : Int) : ℚ) := two_pow_le_roundDouble (by exact_mod_cast not_lt.mp hle)
    rw [hround] at hge
    exact absurd hge (not_le.mpr (by exact_mod_cast h))
  have hself : roundDouble ((k : Int) : ℚ) = k := roundDouble_natCast (by omega) hk
  rw [hself] at hround
  exact_mod_cast hround

theorem mem_candidates_self (n : Nat) {L : Nat} (hL : Int.log 10 (n : ℚ) = L) :
    ((n : Int), (0 : Int)) ∈ candidates n (L + 1) := by
  have he : Int.log 10 (n : ℚ) - ((L + 1 : Nat) : Int) + 1 = 0 := by
    push_cast
    omega
  have hself : roundHalfEven ((n : ℚ) / 10 ^ (0 : Int)) = n := by
    rw [zpow_zero, div_one]
    exact roundHalfEven_intCast n
  unfold candidates
  simp only [he, hself]
  exact List.mem_cons_self

theorem exponent_of_mem_candidates {q : ℚ} {L n : Nat} (hL : Int.log 10 q = L) (hn : n ≤ L)
    {c : Int × Int} (hc : c ∈ candidates q (n + 1)) : 0 ≤ c.2 := by
  have he : c.2 = Int.log 10 q - ((n + 1 : Nat) : Int) + 1 := by
    unfold candidates at hc
    simp only [List.mem_cons, List.not_mem_nil, or_false] at hc
    rcases hc with rfl | rfl | rfl <;> rfl
  rw [he, hL]
  push_cast
  omega

/-- The shortest decimal of an integer of at most 53 bits is the integer without some of its zeros. -/
theorem shortest_natCast {n : Nat} (hpos : 0 < n) (h : n < 2 ^ 53) :
    ∃ s k : Nat, shortest n = ((s : Int), (k : Int)) ∧ s * 10 ^ k = n := by
  obtain ⟨hlog, hlog16⟩ := log_ten_natCast hpos h
  obtain ⟨L, hL⟩ : ∃ L : Nat, Int.log 10 (n : ℚ) = L := ⟨(Int.log 10 (n : ℚ)).toNat, by omega⟩
  let found : Int × Int → Bool := fun c => roundDouble (decimal c.1 c.2) == (n : ℚ)
  -- the search ends at the decimals that have a digit for each of the integer's, or before
  have hself : found ((n : Int), (0 : Int)) = true := by
    have hround := roundDouble_natCast hpos h
    simp [found, decimal, hround]
  have hsome : (((List.range (L + 1)).flatMap fun m => candidates n (m + 1)).find? found).isSome = true := by
    rw [List.find?_isSome]
    refine ⟨((n : Int), (0 : Int)), List.mem_flatMap.mpr ⟨L, List.mem_range.mpr (by omega), ?_⟩, hself⟩
    exact mem_candidates_self n hL
  obtain ⟨c, hc⟩ := Option.isSome_iff_exists.mp hsome
  have hfind : ((List.range 17).flatMap fun m => candidates n (m + 1)).find? found = some c := by
    have hsplit : 17 = (L + 1) + (16 - L) := by omega
    rw [hsplit, List.range_add, List.flatMap_append, List.find?_append, hc]
    rfl
  have hshortest : shortest n = c := by
    unfold shortest
    rw [show (((List.range 17).flatMap fun m => candidates n (m + 1)).find? fun c =>
      roundDouble (decimal c.1 c.2) == (n : ℚ)) = some c from hfind]
    rfl
  obtain ⟨m, hm, hmem⟩ := List.mem_flatMap.mp (List.mem_of_find?_eq_some hc)
  have hexp : 0 ≤ c.2 := exponent_of_mem_candidates hL (by have := List.mem_range.mp hm; omega) hmem
  obtain ⟨k, hk⟩ : ∃ k : Nat, c.2 = k := ⟨c.2.toNat, by omega⟩
  have hround : roundDouble (decimal c.1 c.2) = n := by
    have hfound : found c = true := List.find?_some hc
    exact eq_of_beq hfound
  have hvalue : c.1 * 10 ^ k = n := by
    refine eq_of_roundDouble_eq hpos h ?_
    rw [← hround, decimal, hk, zpow_natCast]
    push_cast
    rfl
  have hcpos : 0 < c.1 := by
    by_contra hle
    have hnonpos : c.1 * 10 ^ k ≤ 0 := mul_nonpos_of_nonpos_of_nonneg (not_lt.mp hle) (by positivity)
    omega
  refine ⟨c.1.toNat, k, ?_, ?_⟩
  · rw [hshortest, Int.toNat_of_nonneg hcpos.le, ← hk]
  · have hcast : ((c.1.toNat * 10 ^ k : Nat) : Int) = n := by
      push_cast
      rw [Int.toNat_of_nonneg hcpos.le, hvalue]
    exact_mod_cast hcast

theorem toDigits_mul_pow {s : Nat} (hs : 0 < s) (k : Nat) :
    Nat.toDigits 10 (s * 10 ^ k) = Nat.toDigits 10 s ++ List.replicate k '0' := by
  induction k with
  | zero => simp
  | succ k ih =>
    have hpos : 0 < s * 10 ^ k := Nat.mul_pos hs (by positivity)
    have happend := Nat.toDigits_append_toDigits (b := 10) (n := s * 10 ^ k) (d := 0) (by omega) hpos (by omega)
    have hzero : Nat.toDigits 10 0 = ['0'] := rfl
    have hvalue : s * 10 ^ (k + 1) = 10 * (s * 10 ^ k) + 0 := by
      rw [pow_succ]
      ring
    rw [hvalue, ← happend, ih, hzero, List.append_assoc, List.replicate_succ']

/-- The zeros that `digits` leaves off. -/
theorem toDigits_eq_digits {s : Nat} (hs : s ≠ 0) :
    Nat.toDigits 10 s =
      digits s ++ List.replicate ((Nat.toDigits 10 s).length - (digits s).length) '0' := by
  have hdigits : digits s = ((Nat.toDigits 10 s).reverse.dropWhile (· == '0')).reverse := by
    obtain ⟨c, cs, hcs, -⟩ := leading_digits hs
    unfold digits at hcs ⊢
    split at hcs
    · rename_i hnil
      obtain ⟨d, ds, hd, hzero, -⟩ := JsonText.leading_toDigits hs
      rw [List.reverse_eq_nil_iff, List.dropWhile_eq_nil_iff, hd] at hnil
      exact absurd (eq_of_beq (hnil d (by simp))) hzero
    · rename_i hne
      rfl
  have hsplit : Nat.toDigits 10 s = digits s ++
      ((Nat.toDigits 10 s).reverse.takeWhile (· == '0')).reverse := by
    rw [hdigits, ← List.reverse_append, List.takeWhile_append_dropWhile, List.reverse_reverse]
  have hzeros : ((Nat.toDigits 10 s).reverse.takeWhile (· == '0')).reverse =
      List.replicate ((Nat.toDigits 10 s).length - (digits s).length) '0' := by
    refine List.eq_replicate_iff.mpr ⟨?_, ?_⟩
    · have hlen := congrArg List.length hsplit
      rw [List.length_append] at hlen
      omega
    · intro c hc
      have hzero : (c == '0') = true := List.mem_takeWhile_imp (p := (· == '0')) (List.mem_reverse.mp hc)
      exact eq_of_beq hzero
  rw [← hzeros]
  exact hsplit

end Py.Binary64

namespace Js

open Py Binary64

/-! ## Properties of a parsed object -/

theorem lookup_parseItems {kvs : Obj} {items : List (String × Value)} (h : parseItems kvs = some items)
    (k : String) : items.lookup k = (kvs.lookup k).bind parse := by
  induction kvs generalizing items with
  | nil =>
    obtain rfl := Option.some.inj h
    rfl
  | cons kv kvs ih =>
    obtain ⟨l, x⟩ := kv
    rw [parseItems] at h
    obtain ⟨v, hv, h⟩ := Option.bind_eq_some_iff.mp h
    obtain ⟨rest, hrest, rfl⟩ := Option.map_eq_some_iff.mp h
    rw [List.lookup_cons, List.lookup_cons]
    cases hk : k == l with
    | true => exact hv.symm
    | false => exact ih hrest

theorem prop_parse {kvs : Obj} {v : Value} (h : parse (.obj kvs) = some v) (k : String) :
    v.prop k = ((Obj.get? kvs k).bind parse).getD .undefined := by
  rw [parse] at h
  obtain ⟨items, hitems, rfl⟩ := Option.map_eq_some_iff.mp h
  rw [Value.prop, lookup_parseItems hitems]
  rfl

theorem parse_of_mem {kvs : Obj} {items : List (String × Value)} (h : parseItems kvs = some items)
    {kv : String × Json} (hkv : kv ∈ kvs) : ∃ w, parse kv.2 = some w := by
  induction kvs generalizing items with
  | nil => cases hkv
  | cons head kvs ih =>
    obtain ⟨l, x⟩ := head
    rw [parseItems] at h
    obtain ⟨v, hv, h⟩ := Option.bind_eq_some_iff.mp h
    obtain ⟨rest, hrest, -⟩ := Option.map_eq_some_iff.mp h
    rcases List.mem_cons.mp hkv with rfl | hkv
    · exact ⟨v, hv⟩
    · exact ih hrest hkv

/-- Where an object can be parsed, each of its items can. -/
theorem parse_item {kvs : Obj} {v : Value} (h : parse (.obj kvs) = some v) {k : String} {j : Json}
    (hk : Obj.get? kvs k = some j) : ∃ w, parse j = some w ∧ v.prop k = w := by
  have hprop := prop_parse h k
  rw [parse] at h
  obtain ⟨items, hitems, rfl⟩ := Option.map_eq_some_iff.mp h
  have hmem : (k, j) ∈ kvs := Dict.mem_of_lookup hk
  obtain ⟨w, hw⟩ : ∃ w, parse j = some w := parse_of_mem hitems hmem
  rw [hk, Option.bind_some, hw] at hprop
  exact ⟨w, hw, hprop⟩

/-! ## Properties of a stringified object -/

theorem lookup_stringifiedItems {kvs : List (String × Value)} (hkvs : (kvs.map Prod.fst).Nodup) (k : String) :
    (Value.stringifiedItems kvs).lookup k = (kvs.lookup k).bind Value.stringified := by
  induction kvs with
  | nil => rfl
  | cons kv kvs ih =>
    obtain ⟨l, v⟩ := kv
    rw [List.map_cons, List.nodup_cons] at hkvs
    obtain ⟨hl, hkvs⟩ := hkvs
    rw [Value.stringifiedItems, List.lookup_cons]
    cases hk : k == l with
    | true =>
      -- a property that is left out is not found further on
      have hrest : (Value.stringifiedItems kvs).lookup k = none := by
        rw [ih hkvs, Dict.lookup_eq_none_iff.mpr (eq_of_beq hk ▸ hl)]
        rfl
      cases hv : v.stringified with
      | none =>
        simp only
        rw [hrest, Option.bind_some, hv]
      | some j =>
        simp only [List.lookup_cons, hk]
        rw [Option.bind_some, hv]
    | false =>
      cases v.stringified with
      | none => exact ih hkvs
      | some j =>
        simp only [List.lookup_cons, hk]
        exact ih hkvs

/-! ## Integers -/

/-- An integer that a script does not change. -/
def Safe (n : Int) : Prop := n.natAbs < 2 ^ 53

instance (n : Int) : Decidable (Safe n) := inferInstanceAs (Decidable (_ < _))

theorem ofInt_of_safe {n : Int} (h : Safe n) : ofInt n = .finite n := by
  have hdecimal : decimal (n.natAbs : Int) 0 = (n.natAbs : ℚ) := by simp [decimal]
  unfold ofInt Binary64.ofDecimal
  by_cases hzero : n = 0
  · subst hzero
    rfl
  · have hpos : 0 < n.natAbs := by omega
    have hposQ : (n.natAbs : ℚ) ≠ 0 := by exact_mod_cast hpos.ne'
    have hfits : ¬ (2 : ℚ) ^ 1024 ≤ n.natAbs := by
      have hlt : (n.natAbs : ℚ) < 2 ^ 53 := by exact_mod_cast h
      exact not_le.mpr (hlt.trans_le (pow_le_pow_right₀ (by norm_num) (by norm_num)))
    simp only [hdecimal, roundDouble_natCast hpos h, if_neg hpos.ne', if_neg hposQ, if_neg hfits]
    have hsign : (if decide (n < 0) = true then -(n.natAbs : ℚ) else (n.natAbs : ℚ)) = n := by
      by_cases hneg : n < 0
      · rw [if_pos (decide_eq_true hneg), Nat.cast_natAbs, abs_of_neg hneg, Int.cast_neg, neg_neg]
      · rw [if_neg (by simpa using hneg), Nat.cast_natAbs, abs_of_nonneg (not_lt.mp hneg)]
    rw [hsign]

theorem positiveChars_natCast {n : Nat} (hpos : 0 < n) (h : n < 2 ^ 53) :
    positiveChars n = Nat.toDigits 10 n := by
  obtain ⟨s, k, hshortest, hvalue⟩ := shortest_natCast hpos h
  have hs : 0 < s := by
    rcases Nat.eq_zero_or_pos s with rfl | hs
    · simp at hvalue
      omega
    · exact hs
  have hdigits := toDigits_eq_digits hs.ne'
  have htext : Nat.toDigits 10 n = Nat.toDigits 10 s ++ List.replicate k '0' := by
    rw [← hvalue, toDigits_mul_pow hs]
  have hlen : (Nat.toDigits 10 n).length ≤ 16 :=
    (Nat.length_toDigits_le_iff (by omega) (by omega)).mpr (h.trans (by norm_num))
  have hone : 0 < (Nat.toDigits 10 s).length := List.length_pos_iff.mpr Nat.toDigits_ne_nil
  have hshort : (digits s).length ≤ (Nat.toDigits 10 s).length := by
    have hlength := congrArg List.length hdigits
    rw [List.length_append] at hlength
    omega
  rw [htext, List.length_append, List.length_replicate] at hlen
  unfold positiveChars
  simp only [hshortest, Int.natAbs_natCast]
  rw [if_pos (by omega), if_neg (by omega), if_pos (by omega)]
  -- the zeros up to the point are those of the digits and those of the exponent
  have hzeros : ((Nat.toDigits 10 s).length + k : Int).toNat - (digits s).length =
      ((Nat.toDigits 10 s).length - (digits s).length) + k := by omega
  rw [hzeros, List.replicate_add, ← List.append_assoc, ← hdigits, ← htext]

theorem numberChars_ofInt {n : Int} (h : Safe n) : numberChars (ofInt n) = (toString n).toList := by
  rw [ofInt_of_safe h, JsonText.int_text]
  unfold numberChars
  rcases lt_trichotomy n 0 with hneg | rfl | hpos
  · have hnegQ : (n : ℚ) < 0 := by exact_mod_cast hneg
    have hcast : -(n : ℚ) = (n.natAbs : ℚ) := by
      rw [Nat.cast_natAbs, abs_of_neg hneg, Int.cast_neg]
    simp only
    rw [if_neg hnegQ.ne, if_pos hnegQ, hcast, positiveChars_natCast (by omega) h, decide_eq_true hneg]
    rfl
  · rfl
  · have hposQ : (0 : ℚ) < n := by exact_mod_cast hpos
    have hcast : (n : ℚ) = (n.natAbs : ℚ) := by
      rw [Nat.cast_natAbs, abs_of_pos hpos]
    simp only
    rw [if_neg hposQ.ne', if_neg (not_lt.mpr hposQ.le), hcast, positiveChars_natCast (by omega) h,
      decide_eq_false (not_lt.mpr hpos.le)]
    rfl

theorem text_ofInt {n : Int} (h : Safe n) : (Value.number (ofInt n)).text = toString n := by
  rw [Value.text, numberChars_ofInt h, String.ofList_toList]

theorem stringifiedNumber_ofInt {n : Int} (h : Safe n) : Value.stringifiedNumber (ofInt n) = .int n := by
  have htext := numberChars_ofInt h
  rw [ofInt_of_safe h] at htext ⊢
  have hdumps : toString n = dumps .default (.int n) := by
    rw [dumps, dumpChars, String.ofList_toList]
  rw [Value.stringifiedNumber, htext, String.ofList_toList, hdumps, loads_dumps]
  rfl

theorem positive_ofInt {n : Int} (h : Safe n) : (Value.number (ofInt n)).positive = decide (0 < n) := by
  rw [ofInt_of_safe h]
  simp [Value.positive, Value.toNumber]

end Js

import Mathlib.Data.List.Lex
import Mathlib.Data.String.Basic

/-!
# Percent-encoding

A text is encoded by escaping the bytes of its characters, except for those characters that are kept. What
is encoded can be told apart, holds no separator, and keeps its order but for one thing: an escape comes
before every character that is kept.
-/

namespace Percent

/-! ## First differences -/

/-- The lists differ, and where they first do, the one on the left has the smaller element. -/
inductive Below {α : Type} [LT α] : List α → List α → Prop
  | head {a b : α} {s t : List α} (h : a < b) : Below (a :: s) (b :: t)
  | tail {a : α} {s t : List α} (h : Below s t) : Below (a :: s) (a :: t)

section Below

variable {α β : Type} [LT α] [LT β]

theorem Below.append {s t : List α} (h : Below s t) (x y : List α) : Below (s ++ x) (t ++ y) := by
  induction h with
  | head h => exact .head h
  | tail _ ih => exact .tail ih

theorem Below.prepend {s t : List α} (p : List α) (h : Below s t) : Below (p ++ s) (p ++ t) := by
  induction p with
  | nil => exact h
  | cons a p ih => exact .tail ih

theorem Below.lt {s t : List α} (h : Below s t) : s < t := by
  induction h with
  | head h => exact List.Lex.rel h
  | tail _ ih => exact List.Lex.cons ih

theorem Below.flatMap {f : α → List β} (hf : ∀ a b, a < b → Below (f a) (f b)) {s t : List α}
    (h : Below s t) : Below (s.flatMap f) (t.flatMap f) := by
  induction h with
  | head h =>
    rw [List.flatMap_cons, List.flatMap_cons]
    exact (hf _ _ h).append _ _
  | tail _ ih =>
    rw [List.flatMap_cons, List.flatMap_cons]
    exact ih.prepend _

end Below

/-! ## Bytes -/

/-- Bytes are compared one after the other. -/
theorem below_bytes {m n : Nat} {s t : List UInt8} (hle : m ≤ n) (hn : n < 256)
    (h : m = n → Below s t) : Below (UInt8.ofNat m :: s) (UInt8.ofNat n :: t) := by
  rcases Nat.lt_or_eq_of_le hle with hlt | rfl
  · refine .head ?_
    rw [UInt8.lt_iff_toNat_lt, UInt8.toNat_ofNat', UInt8.toNat_ofNat']
    omega
  · exact .tail (h rfl)

/-- UTF-8 keeps the order of the characters, and the bytes of no character begin those of another. -/
theorem utf8_below {c d : Char} (h : c < d) :
    Below (String.utf8EncodeChar c) (String.utf8EncodeChar d) := by
  have hlt : c.val.toNat < d.val.toNat := h
  have hd : d.val.toNat < 0x110000 := by
    rcases d.valid with hd | ⟨-, hd⟩
    · exact lt_trans hd (by decide)
    · exact hd
  unfold String.utf8EncodeChar
  simp only
  generalize c.val.toNat = v at hlt
  generalize d.val.toNat = w at hlt hd
  -- the leading byte of the longer one is larger, and the bytes of equally many are digits
  by_cases h₁ : v ≤ 0x7f
  · rw [if_pos h₁]
    split_ifs <;> exact below_bytes (by omega) (by omega) (fun _ => by omega)
  · rw [if_neg h₁, if_neg (by omega : ¬ w ≤ 0x7f)]
    by_cases h₂ : v ≤ 0x7ff
    · rw [if_pos h₂]
      split_ifs
      · exact below_bytes (by omega) (by omega) fun _ =>
          below_bytes (by omega) (by omega) (fun _ => by omega)
      all_goals exact below_bytes (by omega) (by omega) (fun _ => by omega)
    · rw [if_neg h₂, if_neg (by omega : ¬ w ≤ 0x7ff)]
      by_cases h₃ : v ≤ 0xffff
      · rw [if_pos h₃]
        split_ifs
        · exact below_bytes (by omega) (by omega) fun _ => below_bytes (by omega) (by omega) fun _ =>
            below_bytes (by omega) (by omega) (fun _ => by omega)
        · exact below_bytes (by omega) (by omega) (fun _ => by omega)
      · rw [if_neg h₃, if_neg (by omega : ¬ w ≤ 0xffff)]
        exact below_bytes (by omega) (by omega) fun _ => below_bytes (by omega) (by omega) fun _ =>
          below_bytes (by omega) (by omega) fun _ => below_bytes (by omega) (by omega) (fun _ => by omega)

/-! ## Escapes -/

def hexDigit (n : Nat) : Char := if n < 10 then Char.ofNat (n + 48) else Char.ofNat (n + 55)

theorem hexDigit_lt {m n : Nat} (hmn : m < n) (hn : n < 16) : hexDigit m < hexDigit n := by
  have hall : ∀ n < 16, ∀ m < n, hexDigit m < hexDigit n := by decide
  exact hall n hn m hmn

/-- The escape of a byte. -/
def escapeByte (b : UInt8) : List Char := ['%', hexDigit (b.toNat / 16), hexDigit (b.toNat % 16)]

theorem escapeByte_below {a b : UInt8} (h : a < b) : Below (escapeByte a) (escapeByte b) := by
  have hlt : a.toNat < b.toNat := h
  have hb : b.toNat < 256 := b.toNat_lt
  refine .tail ?_
  by_cases hdiv : a.toNat / 16 = b.toNat / 16
  · rw [hdiv]
    exact .tail (.head (hexDigit_lt (by omega) (by omega)))
  · exact .head (hexDigit_lt (by omega) (by omega))

variable (keep : Char → Bool)

/-- A character as it stands in the encoding. -/
def escapeChar (c : Char) : List Char :=
  if keep c then [c] else (String.utf8EncodeChar c).flatMap escapeByte

def escape (cs : List Char) : List Char := cs.flatMap (escapeChar keep)

/-- The texts first differ in a character that is kept, and a larger one that is escaped. -/
def swapped : List Char → List Char → Bool
  | c :: s, d :: t => if c = d then swapped s t else c < d && keep c && !keep d
  | _, _ => false

variable {keep}

theorem lt_of_swapped {s t : List Char} (h : swapped keep s t = true) : s < t := by
  induction s generalizing t with
  | nil => cases h
  | cons c s ih =>
    cases t with
    | nil => cases h
    | cons d t =>
      unfold swapped at h
      by_cases hcd : c = d
      · rw [if_pos hcd] at h
        exact List.cons_lt_cons_iff.mpr (.inr ⟨hcd, ih h⟩)
      · rw [if_neg hcd] at h
        have hlt : c < d := by simpa using (Bool.and_eq_true_iff.mp (Bool.and_eq_true_iff.mp h).1).1
        exact List.cons_lt_cons_iff.mpr (.inl hlt)

/-- What an encoding is made of. -/
theorem mem_escape {c : Char} {cs : List Char} (h : c ∈ escape keep cs) :
    keep c = true ∨ c = '%' ∨ ∃ n < 16, c = hexDigit n := by
  obtain ⟨d, -, hd⟩ := List.mem_flatMap.mp h
  unfold escapeChar at hd
  by_cases hkeep : keep d = true
  · rw [if_pos hkeep] at hd
    rw [List.mem_singleton.mp hd]
    exact .inl hkeep
  · rw [if_neg hkeep] at hd
    obtain ⟨b, -, hb⟩ := List.mem_flatMap.mp hd
    have hlt : b.toNat < 256 := b.toNat_lt
    simp only [escapeByte, List.mem_cons, List.not_mem_nil, or_false] at hb
    rcases hb with rfl | rfl | rfl
    · exact .inr (.inl rfl)
    · exact .inr (.inr ⟨_, by omega, rfl⟩)
    · exact .inr (.inr ⟨_, by omega, rfl⟩)

theorem escapeChar_of_escaped {c : Char} (h : ¬ keep c = true) : ∃ s, escapeChar keep c = '%' :: s := by
  unfold escapeChar
  rw [if_neg h]
  cases hbytes : String.utf8EncodeChar c with
  | nil => exact absurd hbytes String.utf8EncodeChar_ne_nil
  | cons b bs => exact ⟨_, rfl⟩

theorem escapeChar_ne_nil (c : Char) : escapeChar keep c ≠ [] := by
  by_cases h : keep c = true
  · unfold escapeChar
    rw [if_pos h]
    exact List.cons_ne_nil _ _
  · obtain ⟨s, hs⟩ := escapeChar_of_escaped h
    rw [hs]
    exact List.cons_ne_nil _ _

section Order

variable (hkeep : ∀ c, keep c = true → '%' < c)

include hkeep in
/-- One character: the order is turned around if only the smaller one is kept. -/
theorem escapeChar_below {c d : Char} (h : c < d) :
    if (keep c && !keep d) = true then Below (escapeChar keep d) (escapeChar keep c)
    else Below (escapeChar keep c) (escapeChar keep d) := by
  by_cases hc : keep c = true
  · have hec : escapeChar keep c = [c] := if_pos hc
    by_cases hd : keep d = true
    · rw [if_neg (by simp [hd]), hec, show escapeChar keep d = [d] from if_pos hd]
      exact .head h
    · obtain ⟨s, hs⟩ := escapeChar_of_escaped hd
      rw [if_pos (by simp [hc, hd]), hec, hs]
      exact .head (hkeep c hc)
  · rw [if_neg (by simp [hc])]
    by_cases hd : keep d = true
    · obtain ⟨s, hs⟩ := escapeChar_of_escaped hc
      rw [hs, show escapeChar keep d = [d] from if_pos hd]
      exact .head (hkeep d hd)
    · have hec : escapeChar keep c = (String.utf8EncodeChar c).flatMap escapeByte := if_neg hc
      have hed : escapeChar keep d = (String.utf8EncodeChar d).flatMap escapeByte := if_neg hd
      rw [hec, hed]
      exact (utf8_below h).flatMap fun _ _ => escapeByte_below

include hkeep in
/-- The encoding keeps the order of two texts, but for those that are swapped. -/
theorem escape_lt {s t : List Char} (h : s < t) :
    if swapped keep s t = true then escape keep t < escape keep s else escape keep s < escape keep t := by
  induction s generalizing t with
  | nil =>
    cases t with
    | nil => exact absurd h (lt_irrefl _)
    | cons d t =>
      rw [if_neg (by simp [swapped])]
      obtain ⟨x, xs, hx⟩ := List.exists_cons_of_ne_nil (@escapeChar_ne_nil keep d)
      show [] < escapeChar keep d ++ escape keep t
      rw [hx]
      exact List.Lex.nil
  | cons c s ih =>
    cases t with
    | nil => cases h
    | cons d t =>
      have hcons : ∀ x xs, escape keep (x :: xs) = escapeChar keep x ++ escape keep xs := fun _ _ => rfl
      rw [hcons, hcons]
      unfold swapped
      rcases List.cons_lt_cons_iff.mp h with hcd | ⟨rfl, hst⟩
      · rw [if_neg (ne_of_lt hcd)]
        have hbelow := escapeChar_below hkeep hcd
        by_cases hturn : (keep c && !keep d) = true
        · rw [if_pos hturn] at hbelow
          rw [if_pos (by simpa [hcd] using hturn)]
          exact (hbelow.append _ _).lt
        · rw [if_neg hturn] at hbelow
          rw [if_neg (by simpa [hcd] using hturn)]
          exact (hbelow.append _ _).lt
      · rw [if_pos rfl]
        have htail := ih hst
        by_cases hturn : swapped keep s t = true
        · rw [if_pos hturn] at htail ⊢
          exact List.append_left_lt htail
        · rw [if_neg hturn] at htail ⊢
          exact List.append_left_lt htail

include hkeep in
/-- **Different texts are encoded differently.** -/
theorem escape_injective : Function.Injective (escape keep) := by
  have hne : ∀ {s t : List Char}, s < t → escape keep s ≠ escape keep t := by
    intro s t h heq
    have hlt := escape_lt hkeep h
    rw [heq] at hlt
    split at hlt <;> exact lt_irrefl _ hlt
  intro s t heq
  rcases lt_trichotomy s t with h | h | h
  · exact absurd heq (hne h)
  · exact h
  · exact absurd heq.symm (hne h)

include hkeep in
theorem escape_lt_iff {s t : List Char} (h : s < t) :
    escape keep s < escape keep t ↔ swapped keep s t = false := by
  have hlt := escape_lt hkeep h
  split at hlt
  · rename_i hswapped
    rw [hswapped]
    exact ⟨fun h' => absurd hlt (lt_asymm h'), fun h' => by cases h'⟩
  · rename_i hswapped
    exact ⟨fun _ => Bool.eq_false_iff.mpr hswapped, fun _ => hlt⟩

end Order

/-! ## Separators -/

section Separators

variable {α : Type} {x : α} {s s' t t' : List α}

/-- The text before the first separator and that after it. -/
theorem sep_inj_left (hs : x ∉ s) (hs' : x ∉ s') (h : s ++ x :: t = s' ++ x :: t') : s = s' ∧ t = t' := by
  induction s generalizing s' with
  | nil =>
    cases s' with
    | nil => exact ⟨rfl, (List.cons.inj h).2⟩
    | cons y ys =>
      obtain ⟨hy, -⟩ := List.cons.inj h
      exact absurd List.mem_cons_self (hy ▸ hs')
  | cons y ys ih =>
    cases s' with
    | nil =>
      obtain ⟨hy, -⟩ := List.cons.inj h
      exact absurd List.mem_cons_self (hy ▸ hs)
    | cons z zs =>
      obtain ⟨rfl, hrest⟩ := List.cons.inj h
      obtain ⟨rfl, rfl⟩ := ih (List.not_mem_of_not_mem_cons hs) (List.not_mem_of_not_mem_cons hs') hrest
      exact ⟨rfl, rfl⟩

/-- The text before the last separator and that after it. -/
theorem sep_inj_right (ht : x ∉ t) (ht' : x ∉ t') (h : s ++ x :: t = s' ++ x :: t') : s = s' ∧ t = t' := by
  have hreverse := congrArg List.reverse h
  simp only [List.reverse_append, List.reverse_cons, List.append_assoc, List.singleton_append] at hreverse
  obtain ⟨hts, hss⟩ := sep_inj_left (by rwa [List.mem_reverse]) (by rwa [List.mem_reverse]) hreverse
  exact ⟨List.reverse_injective hss, List.reverse_injective hts⟩

/-- Texts that hold no separator can be told apart when they are joined by it. -/
theorem join_inj [BEq α] [LawfulBEq α] {ls ls' : List (List α)} (hne : ls ≠ []) (hne' : ls' ≠ [])
    (hls : ∀ l ∈ ls, x ∉ l) (hls' : ∀ l ∈ ls', x ∉ l) (h : [x].intercalate ls = [x].intercalate ls') :
    ls = ls' := by
  rw [← List.splitOn_intercalate x hls hne, h, List.splitOn_intercalate x hls' hne']

end Separators

end Percent

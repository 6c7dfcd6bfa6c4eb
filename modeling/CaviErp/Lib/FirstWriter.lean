import Mathlib.Data.List.Induction
import Mathlib.Data.List.Basic

/-!
# First writer wins

A store in which each key is written once: the first admissible request for a key takes it, every later
request for that key is a duplicate. What the store holds, and how it answers, is a function of the
requests so far. The last section says when the requests of one owner are answered as if the other
owners did not exist.
-/

namespace FirstWriter

variable {ρ β : Type}

/-! ## Answers along a history -/

/-- Each request with its answer, when the answer to `r` after the requests `pre` is `f pre r`. -/
def answersFrom (f : List ρ → ρ → β) : List ρ → List ρ → List (ρ × β)
  | _, [] => []
  | pre, r :: rest => (r, f pre r) :: answersFrom f (pre ++ [r]) rest

/-- The answers to a whole history. -/
def answers (f : List ρ → ρ → β) (l : List ρ) : List (ρ × β) := answersFrom f [] l

theorem answersFrom_append (f : List ρ → ρ → β) (pre l m : List ρ) :
    answersFrom f pre (l ++ m) = answersFrom f pre l ++ answersFrom f (pre ++ l) m := by
  induction l generalizing pre with
  | nil => simp [answersFrom]
  | cons r l ih => simp [answersFrom, ih]

theorem answers_snoc (f : List ρ → ρ → β) (l : List ρ) (r : ρ) :
    answers f (l ++ [r]) = answers f l ++ [(r, f l r)] := by
  simp [answers, answersFrom_append, answersFrom]

/-- An answer that is made of another is answered so along the whole history. -/
theorem answers_map {γ : Type} (f : List ρ → ρ → β) (g : ρ → β → γ) (l : List ρ) :
    answers (fun pre r => g r (f pre r)) l = (answers f l).map fun x => (x.1, g x.1 x.2) := by
  induction l using List.reverseRecOn with
  | nil => rfl
  | append_singleton l r ih =>
    rw [answers_snoc, answers_snoc, List.map_append, ih]
    rfl

/-- A position in the answers is a position in the history, answered after what stands before it. -/
theorem answers_split {f : List ρ → ρ → β} {l : List ρ} {pre post : List (ρ × β)} {x : ρ × β}
    (h : answers f l = pre ++ x :: post) :
    l = pre.map Prod.fst ++ x.1 :: post.map Prod.fst ∧ x.2 = f (pre.map Prod.fst) x.1 := by
  have hgen : ∀ (l : List ρ) (past : List ρ) (pre : List (ρ × β)),
      answersFrom f past l = pre ++ x :: post →
        l = pre.map Prod.fst ++ x.1 :: post.map Prod.fst ∧
          x.2 = f (past ++ pre.map Prod.fst) x.1 := by
    intro l
    induction l with
    | nil => intro past pre h; simp [answersFrom] at h
    | cons r l ih =>
      intro past pre h
      cases pre with
      | nil =>
        obtain ⟨rfl, rfl⟩ : (r, f past r) = x ∧ answersFrom f (past ++ [r]) l = post := by
          simpa [answersFrom] using h
        refine ⟨?_, by simp⟩
        have hfst : ∀ (l past : List ρ), (answersFrom f past l).map Prod.fst = l := by
          intro l
          induction l with
          | nil => intro past; rfl
          | cons r l ih => intro past; simp [answersFrom, ih]
        simp [hfst]
      | cons y pre =>
        obtain ⟨rfl, htail⟩ :
            (r, f past r) = y ∧ answersFrom f (past ++ [r]) l = pre ++ x :: post := by
          simpa [answersFrom] using h
        obtain ⟨h1, h2⟩ := ih (past ++ [r]) pre htail
        exact ⟨by simp [h1], by simp [h2]⟩
  simpa using hgen l [] pre h

/-- The answers to the requests satisfying `p` are those of the history with all other requests deleted
exactly when each of them is answered so. -/
theorem answers_filter_iff (f : List ρ → ρ → β) (p : ρ → Bool) (l : List ρ) :
    (answers f l).filter (fun x => p x.1) = answers f (l.filter p) ↔
      ∀ pre r post, l = pre ++ r :: post → p r = true → f pre r = f (pre.filter p) r := by
  induction l using List.reverseRecOn with
  | nil => simp [answers, answersFrom]
  | append_singleton l x ih =>
    have hsplit : (∀ pre r post, l ++ [x] = pre ++ r :: post → p r = true →
          f pre r = f (pre.filter p) r) ↔
        (∀ pre r post, l = pre ++ r :: post → p r = true → f pre r = f (pre.filter p) r) ∧
          (p x = true → f l x = f (l.filter p) x) := by
      constructor
      · intro h
        refine ⟨fun pre r post hl => h pre r (post ++ [x]) (by simp [hl]), h l x [] rfl⟩
      · rintro ⟨h1, h2⟩ pre r post hl hr
        rcases List.eq_nil_or_concat post with rfl | ⟨post, y, rfl⟩
        · obtain ⟨rfl, hx⟩ := List.append_inj' hl rfl
          obtain rfl : x = r := by simpa using hx
          exact h2 hr
        · have hl' : l ++ [x] = (pre ++ r :: post) ++ [y] := by simpa using hl
          exact h1 pre r post (List.append_inj' hl' rfl).1 hr
    rw [hsplit, ← ih, answers_snoc, List.filter_append, List.filter_append]
    by_cases hx : p x = true
    · simp only [List.filter_cons, hx, if_true, List.filter_nil, forall_const]
      rw [answers_snoc]
      constructor
      · intro h
        obtain ⟨h1, h2⟩ := List.append_inj' h rfl
        exact ⟨h1, by simpa using h2⟩
      · rintro ⟨h1, h2⟩
        rw [h1, h2]
    · simp [hx]

/-! ## The store -/

variable {κ : Type} [DecidableEq κ]

/-- How requests are keyed: a request without a key never reaches the store, one that is not admissible
is refused where its key is free. -/
structure Guard (ρ κ : Type) where
  key : ρ → Option κ
  admits : ρ → Bool

/-- The answers of the store. -/
inductive Verdict where
  | invalid
  | duplicate
  | refused
  | inserted
deriving DecidableEq, Repr

namespace Guard

variable (g : Guard ρ κ)

/-- Whether a request can take the key `k`. -/
def claims (k : κ) (r : ρ) : Bool := decide (g.key r = some k) && g.admits r

/-- What the store holds under a key after a history: the first request that could take it. -/
def holder (l : List ρ) (k : κ) : Option ρ := l.find? (g.claims k)

/-- The answer to a request after a history. -/
def verdict (l : List ρ) (r : ρ) : Verdict :=
  match g.key r with
  | none => .invalid
  | some k =>
    if (g.holder l k).isSome then .duplicate else if g.admits r then .inserted else .refused

variable {g}

theorem claims_iff {k : κ} {r : ρ} :
    g.claims k r = true ↔ g.key r = some k ∧ g.admits r = true := by
  simp [claims]

theorem key_of_holder {l : List ρ} {k : κ} {r : ρ} (h : g.holder l k = some r) :
    g.key r = some k ∧ g.admits r = true :=
  claims_iff.mp (List.find?_some h)

theorem holder_append (l m : List ρ) (k : κ) :
    g.holder (l ++ m) k = (g.holder l k).or (g.holder m k) := by
  simp [holder, List.find?_append]

theorem holder_append_of_some {l : List ρ} {k : κ} {r : ρ} (h : g.holder l k = some r)
    (m : List ρ) : g.holder (l ++ m) k = some r := by
  rw [holder_append, h, Option.some_or]

theorem holder_snoc (l : List ρ) (r : ρ) (k : κ) :
    g.holder (l ++ [r]) k =
      if g.verdict l r = .inserted ∧ g.key r = some k then some r else g.holder l k := by
  rw [holder_append]
  cases hk : g.key r with
  | none => simp [verdict, hk, holder, claims]
  | some k' =>
    by_cases hkk : k' = k
    · subst hkk
      by_cases ha : g.admits r = true
      · cases hh : g.holder l k' with
        | none =>
          have hv : g.verdict l r = .inserted := by simp [verdict, hk, hh, ha]
          simp [hv, holder, claims, hk, ha]
        | some q => simp [verdict, hk, hh]
      · simp [verdict, hk, ha, holder, claims]
        intro h; split at h <;> simp at h
    · simp [verdict, hk, hkk, holder, claims]

theorem verdict_eq_duplicate_iff {l : List ρ} {r : ρ} :
    g.verdict l r = .duplicate ↔ ∃ k, g.key r = some k ∧ (g.holder l k).isSome := by
  unfold verdict
  cases hk : g.key r with
  | none => simp
  | some k =>
    by_cases hh : (g.holder l k).isSome = true
    · simp [hh]
    · simp only [hh, Bool.false_eq_true, if_false]
      split <;> simp [hh]

theorem verdict_eq_inserted_iff {l : List ρ} {r : ρ} :
    g.verdict l r = .inserted ↔
      ∃ k, g.key r = some k ∧ g.holder l k = none ∧ g.admits r = true := by
  unfold verdict
  cases hk : g.key r with
  | none => simp
  | some k =>
    cases hh : g.holder l k with
    | none => simp [hh]
    | some q => simp [hh]

/-- What is held was answered as inserted. -/
theorem inserted_of_holder {l : List ρ} {k : κ} {r : ρ} (h : g.holder l k = some r) :
    (r, Verdict.inserted) ∈ answers g.verdict l := by
  induction l using List.reverseRecOn with
  | nil => simp [holder] at h
  | append_singleton l r' ih =>
    rw [holder_snoc] at h
    rw [answers_snoc]
    split at h
    · rename_i hins
      obtain rfl := Option.some.inj h
      rw [hins.1]
      exact List.mem_append_right _ List.mem_cons_self
    · exact List.mem_append_left _ (ih h)

/-- The key of a request that was inserted, or that is a duplicate, is held. -/
theorem holder_of_answered {l : List ρ} {r : ρ} {v : Verdict} (h : (r, v) ∈ answers g.verdict l)
    (hv : v = .duplicate ∨ v = .inserted) : ∃ k, g.key r = some k ∧ (g.holder l k).isSome := by
  obtain ⟨pre, post, hsplit⟩ := List.append_of_mem h
  obtain ⟨hl, hanswer⟩ := answers_split hsplit
  rcases hv with rfl | rfl
  · obtain ⟨k, hk, hheld⟩ := verdict_eq_duplicate_iff.mp hanswer.symm
    obtain ⟨q, hq⟩ := Option.isSome_iff_exists.mp hheld
    refine ⟨k, hk, ?_⟩
    rw [hl, holder_append_of_some hq]
    rfl
  · obtain ⟨k, hk, -, hadmits⟩ := verdict_eq_inserted_iff.mp hanswer.symm
    refine ⟨k, hk, List.find?_isSome.mpr ⟨r, ?_, claims_iff.mpr ⟨hk, hadmits⟩⟩⟩
    rw [hl]
    exact List.mem_append_right _ List.mem_cons_self

theorem countP_inserted (l : List ρ) (k : κ) :
    (answers g.verdict l).countP (fun x => decide (g.key x.1 = some k ∧ x.2 = .inserted)) =
      if (g.holder l k).isSome then 1 else 0 := by
  induction l using List.reverseRecOn with
  | nil => simp [answers, answersFrom, holder]
  | append_singleton l r ih =>
    rw [answers_snoc, List.countP_append, ih, holder_snoc]
    by_cases hins : g.verdict l r = .inserted ∧ g.key r = some k
    · -- only a free key is taken
      obtain ⟨k', hk', hfree, -⟩ := verdict_eq_inserted_iff.mp hins.1
      obtain rfl : k' = k := by simpa [hins.2] using hk'.symm
      simp [hins.1, hins.2, hfree]
    · have hins' : ¬ (g.key r = some k ∧ g.verdict l r = .inserted) := fun h => hins ⟨h.2, h.1⟩
      simp [hins, hins']

theorem verdict_of_taken {pre mid : List ρ} {q r : ρ} {k : κ} (hq : g.verdict pre q = .inserted)
    (hkq : g.key q = some k) (hkr : g.key r = some k) :
    g.verdict (pre ++ q :: mid) r = .duplicate := by
  refine verdict_eq_duplicate_iff.mpr ⟨k, hkr, ?_⟩
  have hsnoc : g.holder (pre ++ [q]) k = some q := by
    rw [holder_snoc]
    simp [hq, hkq]
  have hall : pre ++ q :: mid = (pre ++ [q]) ++ mid := by simp
  rw [hall, holder_append_of_some hsnoc mid]
  rfl

/-! ## Owners -/

section Owners

variable (p : ρ → Bool)

/-- A holder that satisfies `p` is also the holder in the history of the requests satisfying `p`. -/
theorem holder_filter_of_mine {l : List ρ} {k : κ} {q : ρ} (h : g.holder l k = some q)
    (hq : p q = true) : g.holder (l.filter p) k = some q := by
  obtain ⟨hc, pre, post, rfl, hpre⟩ := List.find?_eq_some_iff_append.mp h
  refine List.find?_eq_some_iff_append.mpr ⟨hc, pre.filter p, post.filter p, by simp [hq], ?_⟩
  intro a ha
  exact hpre a (List.mem_filter.mp ha).1

/-- What the requests satisfying `p` hold, the whole history holds too, though possibly by another. -/
theorem holder_isSome_of_filter {l : List ρ} {k : κ} (h : (g.holder (l.filter p) k).isSome) :
    (g.holder l k).isSome := by
  rw [holder, List.find?_isSome] at h ⊢
  obtain ⟨x, hx, hc⟩ := h
  exact ⟨x, (List.mem_filter.mp hx).1, hc⟩

/-- Whenever a request satisfying `p` is made, its key is free or held by a request satisfying `p`. -/
def Undisturbed (g : Guard ρ κ) (l : List ρ) : Prop :=
  ∀ pre r post, l = pre ++ r :: post → p r = true →
    ∀ k, g.key r = some k → ∀ q, g.holder pre k = some q → p q = true

theorem Undisturbed.verdict_eq {l : List ρ} (h : Undisturbed p g l) {pre post : List ρ} {r : ρ}
    (hl : l = pre ++ r :: post) (hr : p r = true) :
    g.verdict pre r = g.verdict (pre.filter p) r := by
  unfold verdict
  cases hk : g.key r with
  | none => rfl
  | some k =>
    have hsame : (g.holder pre k).isSome = (g.holder (pre.filter p) k).isSome := by
      cases hh : g.holder pre k with
      | none =>
        cases hf : g.holder (pre.filter p) k with
        | none => rfl
        | some q =>
          have := holder_isSome_of_filter p (g := g) (l := pre) (k := k) (by simp [hf])
          simp [hh] at this
      | some q => simp [holder_filter_of_mine p hh (h pre r post hl hr k hk q hh)]
    simp only [hsame]

theorem Undisturbed.holder_eq {l : List ρ} (h : Undisturbed p g l) (k : κ) :
    (g.holder l k).filter p = g.holder (l.filter p) k := by
  cases hh : g.holder l k with
  | none =>
    cases hf : g.holder (l.filter p) k with
    | none => rfl
    | some q =>
      have := holder_isSome_of_filter p (g := g) (l := l) (k := k) (by simp [hf])
      simp [hh] at this
  | some q =>
    by_cases hq : p q = true
    · rw [holder_filter_of_mine p hh hq]; simp [hq]
    · cases hf : g.holder (l.filter p) k with
      | none => simp [hq]
      | some r =>
        -- a request of ours that could take the key comes after its holder `q`, which is not ours
        exfalso
        obtain ⟨hkr, har⟩ := key_of_holder hf
        obtain ⟨hrl, hpr⟩ := List.mem_filter.mp (List.mem_of_find?_eq_some hf)
        obtain ⟨hcq, pre, post, rfl, hpre⟩ := List.find?_eq_some_iff_append.mp hh
        rcases List.mem_append.mp hrl with hr | hr
        · have := hpre r hr
          simp [claims_iff.mpr ⟨hkr, har⟩] at this
        · rcases List.mem_cons.mp hr with rfl | hr
          · exact hq hpr
          · obtain ⟨a, b, rfl⟩ := List.append_of_mem hr
            refine hq (h (pre ++ q :: a) r b (by simp) hpr k hkr q ?_)
            exact List.find?_eq_some_iff_append.mpr ⟨hcq, pre, a, rfl, hpre⟩

/-- The first request of ours for a key held by another is a duplicate that would not be one without
the others. -/
theorem undisturbed_of_verdict_eq {l : List ρ}
    (h : ∀ pre r post, l = pre ++ r :: post → p r = true →
      g.verdict pre r = g.verdict (pre.filter p) r) : Undisturbed p g l := by
  intro pre
  induction hn : pre.length using Nat.strongRecOn generalizing pre with
  | _ n ih =>
  intro r post hl hr k hk q hq
  by_contra hnq
  obtain ⟨hcq, a, b, rfl, ha⟩ := List.find?_eq_some_iff_append.mp hq
  -- a request of ours that could take `k` before `r` would come after `q`, against the induction
  have hnone : g.holder ((a ++ q :: b).filter p) k = none := by
    cases hf : g.holder ((a ++ q :: b).filter p) k with
    | none => rfl
    | some s =>
      exfalso
      obtain ⟨hks, has⟩ := key_of_holder hf
      obtain ⟨hsl, hps⟩ := List.mem_filter.mp (List.mem_of_find?_eq_some hf)
      rcases List.mem_append.mp hsl with hs | hs
      · have := ha s hs
        simp [claims_iff.mpr ⟨hks, has⟩] at this
      · rcases List.mem_cons.mp hs with rfl | hs
        · exact hnq hps
        · obtain ⟨b₁, b₂, rfl⟩ := List.append_of_mem hs
          refine hnq (ih (a ++ q :: b₁).length ?_ (a ++ q :: b₁) rfl s (b₂ ++ r :: post)
            (by simp [hl]) hps k hks q (List.find?_eq_some_iff_append.mpr ⟨hcq, a, b₁, rfl, ha⟩))
          rw [← hn]
          simp only [List.length_append, List.length_cons]
          omega
  have hv := h _ r post hl hr
  rw [verdict_eq_duplicate_iff.mpr ⟨k, hk, by simp [hq]⟩] at hv
  obtain ⟨k', hk', hs⟩ := verdict_eq_duplicate_iff.mp hv.symm
  obtain rfl : k = k' := by simpa [hk] using hk'
  rw [hnone] at hs
  simp at hs

end Owners

end Guard

end FirstWriter

import Mathlib.Data.List.Induction
import Mathlib.Data.List.Forall2

/-!
# Hash chains

A chain starts from a fixed anchor; each entry records the hash of its predecessor's recorded hash and
its own content. Nothing is assumed of the hash here beyond what each result names.
-/

namespace HashChain

variable {H E : Type} (link : H → E → H)

/-- Every recorded hash is the link of its content to the hash recorded before it. -/
def Chained : H → List (E × H) → Prop
  | _, [] => True
  | prev, (e, h) :: l => h = link prev e ∧ Chained h l

/-- The hash recorded last, or the anchor. -/
def tip (anchor : H) (l : List (E × H)) : H := (l.getLast?.map Prod.snd).getD anchor

/-- What is hashed at each position: the hash recorded before it, and its content. -/
def links : H → List (E × H) → List (H × E)
  | _, [] => []
  | prev, (e, h) :: l => (prev, e) :: links h l

variable {link}

@[simp] theorem tip_nil (anchor : H) : tip (E := E) anchor [] = anchor := rfl

@[simp] theorem tip_snoc (anchor : H) (l : List (E × H)) (e : E) (h : H) :
    tip anchor (l ++ [(e, h)]) = h := by
  simp [tip]

theorem tip_cons (anchor : H) (e : E) (h : H) (l : List (E × H)) :
    tip anchor ((e, h) :: l) = tip h l := by
  rcases List.eq_nil_or_concat l with rfl | ⟨l', ⟨e', h'⟩, rfl⟩
  · rfl
  · rw [List.concat_eq_append, ← List.cons_append, tip_snoc, tip_snoc]

/-- The tip is decided by the recorded hashes. -/
theorem tip_congr {l l' : List (E × H)} (h : l.map Prod.snd = l'.map Prod.snd) (anchor : H) :
    tip anchor l = tip anchor l' := by
  unfold tip
  rw [← List.getLast?_map, h, List.getLast?_map]

theorem chained_append {anchor : H} {l₁ l₂ : List (E × H)} :
    Chained link anchor (l₁ ++ l₂) ↔
      Chained link anchor l₁ ∧ Chained link (tip anchor l₁) l₂ := by
  induction l₁ generalizing anchor with
  | nil => simp [Chained]
  | cons x l₁ ih =>
    obtain ⟨e, h⟩ := x
    simp only [List.cons_append, Chained, ih, tip_cons, and_assoc]

theorem links_append (anchor : H) (l₁ l₂ : List (E × H)) :
    links anchor (l₁ ++ l₂) = links anchor l₁ ++ links (tip anchor l₁) l₂ := by
  induction l₁ generalizing anchor with
  | nil => simp [links]
  | cons x l₁ ih =>
    obtain ⟨e, h⟩ := x
    simp only [List.cons_append, links, ih, tip_cons]

theorem chained_snoc {anchor : H} {l : List (E × H)} {e : E} {h : H} :
    Chained link anchor (l ++ [(e, h)]) ↔
      Chained link anchor l ∧ h = link (tip anchor l) e := by
  rw [chained_append]
  simp [Chained]

theorem links_snoc (anchor : H) (l : List (E × H)) (e : E) (h : H) :
    links anchor (l ++ [(e, h)]) = links anchor l ++ [(tip anchor l, e)] := by
  rw [links_append]
  rfl

/-! ## One position -/

theorem split_getElem? {l : List (E × H)} {i : Nat} {x : E × H} (h : l[i]? = some x) :
    l = l.take i ++ x :: l.drop (i + 1) := by
  obtain ⟨hlt, rfl⟩ := List.getElem?_eq_some_iff.mp h
  rw [← List.drop_eq_getElem_cons hlt, List.take_append_drop]

theorem mem_links_of_getElem? {l : List (E × H)} {i : Nat} {e : E} {h : H}
    (hget : l[i]? = some (e, h)) (anchor : H) : (tip anchor (l.take i), e) ∈ links anchor l := by
  have hsplit : links anchor l =
      links anchor (l.take i) ++ links (tip anchor (l.take i)) ((e, h) :: l.drop (i + 1)) := by
    rw [← links_append, ← split_getElem? hget]
  rw [hsplit]
  exact List.mem_append_right _ List.mem_cons_self

theorem Chained.getElem? {l : List (E × H)} {i : Nat} {e : E} {h : H} {anchor : H}
    (hc : Chained link anchor l) (hget : l[i]? = some (e, h)) :
    h = link (tip anchor (l.take i)) e := by
  rw [split_getElem? hget, chained_append] at hc
  exact hc.2.1

/-- A property of the anchor and of every hash computed holds of every predecessor hash in a chain. -/
theorem Chained.links_prev {P : H → Prop} {anchor : H} {l : List (E × H)}
    (hc : Chained link anchor l) (ha : P anchor) (hl : ∀ p e, P (link p e)) :
    ∀ x ∈ links anchor l, P x.1 := by
  induction l generalizing anchor with
  | nil => simp [links]
  | cons x l ih =>
    obtain ⟨e, h⟩ := x
    obtain ⟨rfl, hc⟩ := hc
    intro y hy
    rcases List.mem_cons.mp hy with rfl | hy
    · exact ha
    · exact ih hc (hl _ _) y hy

/-- **The tip commits to the whole chain.** If linking is injective (up to `R` on contents) on what the
two chains hash, and never yields the anchor, then two chains with the same tip agree entry by entry. -/
theorem commits_of_tip_eq {R : E → E → Prop} {anchor : H} (hanchor : ∀ p e, link p e ≠ anchor) :
    ∀ (l₁ l₂ : List (E × H)), Chained link anchor l₁ → Chained link anchor l₂ →
      (∀ x ∈ links anchor l₁, ∀ y ∈ links anchor l₂,
        link x.1 x.2 = link y.1 y.2 → x.1 = y.1 ∧ R x.2 y.2) →
      tip anchor l₁ = tip anchor l₂ →
      List.Forall₂ (fun x y => R x.1 y.1 ∧ x.2 = y.2) l₁ l₂ := by
  -- the tip of a non-empty chain is a hash computed, so it is not the anchor
  have hne : ∀ (l : List (E × H)) e h, Chained link anchor (l ++ [(e, h)]) → h ≠ anchor := by
    intro l e h hc
    rw [(chained_snoc.mp hc).2]
    exact hanchor _ _
  intro l₁
  induction l₁ using List.reverseRecOn with
  | nil =>
    intro l₂ _ hc₂ _ htip
    rcases List.eq_nil_or_concat l₂ with rfl | ⟨l, ⟨e, h⟩, rfl⟩
    · exact List.Forall₂.nil
    · rw [List.concat_eq_append] at hc₂ htip
      exact absurd (by simpa using htip.symm) (hne l e h hc₂)
  | append_singleton l₁ x ih =>
    obtain ⟨e₁, h₁⟩ := x
    intro l₂ hc₁ hc₂ hinj htip
    rcases List.eq_nil_or_concat l₂ with rfl | ⟨l₂, ⟨e₂, h₂⟩, rfl⟩
    · exact absurd (by simpa using htip) (hne l₁ e₁ h₁ hc₁)
    · rw [List.concat_eq_append] at hc₂ htip hinj ⊢
      obtain ⟨hc₁, hh₁⟩ := chained_snoc.mp hc₁
      obtain ⟨hc₂, hh₂⟩ := chained_snoc.mp hc₂
      have hh : h₁ = h₂ := by simpa using htip
      rw [links_snoc, links_snoc] at hinj
      obtain ⟨hprev, hR⟩ := hinj (tip anchor l₁, e₁) (by simp) (tip anchor l₂, e₂) (by simp)
        (by rw [← hh₁, ← hh₂, hh])
      have hrest := ih l₂ hc₁ hc₂
        (fun x hx y hy => hinj x (List.mem_append_left _ hx) y (List.mem_append_left _ hy)) hprev
      exact List.rel_append hrest (List.Forall₂.cons ⟨hR, hh⟩ List.Forall₂.nil)

/-! ## Parts of a chain -/

/-- **A chain of entries of a chain is a prefix of it.** If linking is injective in the predecessor on
what the two lists hash, and never yields the anchor, then entries taken from a chain (in any order and
number) only form a chain again where they are an initial segment of it. -/
theorem prefix_of_subset {anchor : H} (hanchor : ∀ p e, link p e ≠ anchor) {l rows : List (E × H)}
    (hl : Chained link anchor l) (hrows : Chained link anchor rows) (hsub : ∀ x ∈ rows, x ∈ l)
    (hinj : ∀ x ∈ links anchor rows, ∀ y ∈ links anchor l,
      link x.1 x.2 = link y.1 y.2 → x.1 = y.1) : rows <+: l := by
  -- on the last row: it is linked to the tip of the rows before it, and in `l` to its predecessor there
  induction rows using List.reverseRecOn with
  | nil => exact List.nil_prefix
  | append_singleton rows x ih =>
    obtain ⟨e, h⟩ := x
    obtain ⟨hrows', hlast⟩ := chained_snoc.mp hrows
    rw [links_snoc] at hinj
    have hpre : rows <+: l := by
      apply ih hrows'
      · intro x hx
        exact hsub x (List.mem_append_left _ hx)
      · intro x hx y hy
        exact hinj x (List.mem_append_left _ hx) y hy
    obtain ⟨before, after, hsplit⟩ := List.append_of_mem (hsub (e, h) (by simp))
    have hl' := hl
    rw [hsplit, chained_append] at hl'
    obtain ⟨hbefore, hhere, -⟩ := hl'
    have hlinks : links anchor l =
        links anchor before ++ links (tip anchor before) ((e, h) :: after) := by
      rw [hsplit, links_append]
    have htip : tip anchor rows = tip anchor before := by
      refine hinj (tip anchor rows, e) (by simp) (tip anchor before, e) ?_ (hlast ▸ hhere)
      rw [hlinks, links]
      simp
    -- both are chains with the same tip, so they have the same length
    have hlen : rows.length = before.length := by
      refine (commits_of_tip_eq (R := fun _ _ => True) hanchor rows before hrows' hbefore ?_
        htip).length_eq
      intro x hx y hy hxy
      refine ⟨hinj x (List.mem_append_left _ hx) y ?_ hxy, trivial⟩
      rw [hlinks]
      exact List.mem_append_left _ hy
    have heq : rows = before := by
      have hbeforePre : before <+: l := ⟨(e, h) :: after, hsplit.symm⟩
      exact (List.prefix_of_prefix_length_le hpre hbeforePre (Nat.le_of_eq hlen)).eq_of_length hlen
    refine ⟨after, ?_⟩
    rw [heq, hsplit, List.append_assoc]
    rfl

/-- The same hashes over other contents form a chain exactly where each content links as the one it
replaces does. -/
theorem chained_map_iff {α : Type} {f g : α → E} {h : α → H} {R : α → Prop} {anchor : H} {l : List α}
    (hl : Chained link anchor (l.map fun a => (f a, h a)))
    (hR : ∀ p, ∀ a ∈ l, (p, f a) ∈ links anchor (l.map fun a => (f a, h a)) →
      (p, g a) ∈ links anchor (l.map fun a => (g a, h a)) → (link p (f a) = link p (g a) ↔ R a)) :
    Chained link anchor (l.map fun a => (g a, h a)) ↔ ∀ a ∈ l, R a := by
  induction l generalizing anchor with
  | nil => simp [Chained]
  | cons a l ih =>
    simp only [List.map_cons, Chained, links] at hl hR ⊢
    obtain ⟨hhere, hrest⟩ := hl
    have hhead : link anchor (f a) = link anchor (g a) ↔ R a :=
      hR anchor a List.mem_cons_self List.mem_cons_self List.mem_cons_self
    have htail : Chained link (h a) (l.map fun a => (g a, h a)) ↔ ∀ a ∈ l, R a := by
      refine ih hrest ?_
      intro p b hb hf hg
      exact hR p b (List.mem_cons_of_mem _ hb) (List.mem_cons_of_mem _ hf)
        (List.mem_cons_of_mem _ hg)
    rw [List.forall_mem_cons]
    exact and_congr (hhere ▸ hhead) htail

end HashChain

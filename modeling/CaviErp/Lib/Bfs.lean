import Mathlib.Data.List.Chain
import Mathlib.Data.List.Lex
import Mathlib.Data.List.Nodup
import Mathlib.Data.List.Perm.Subperm
import Mathlib.Data.Option.Basic
import Mathlib.Data.Prod.Lex
import Mathlib.Logic.Relation

/-!
# Breadth-first search with paths in the queue

The queue holds whole paths, a vertex is marked when a path to it is queued, and the neighbours of a
vertex are visited in ascending order. The path that is found is then the least of all walks to its end:
none is shorter, and of those as short it is the lexicographically first.
-/

namespace Bfs

variable {α : Type}

/-! ## Walks -/

/-- A walk along edges, as the list of its vertices. -/
structure Walk (edge : α → α → Prop) (src : α) (ws : List α) (dst : α) : Prop where
  head : ws.head? = some src
  last : ws.getLast? = some dst
  chain : ws.IsChain edge

namespace Walk

variable {edge : α → α → Prop} {src dst v : α} {ws : List α}

theorem refl (edge : α → α → Prop) (src : α) : Walk edge src [src] src :=
  ⟨rfl, rfl, List.isChain_singleton src⟩

theorem snoc (h : Walk edge src ws dst) (hedge : edge dst v) : Walk edge src (ws ++ [v]) v := by
  refine ⟨?_, List.getLast?_concat, ?_⟩
  · rw [List.head?_append, h.head]
    rfl
  · refine List.isChain_append.mpr ⟨h.chain, List.isChain_singleton v, ?_⟩
    intro x hx y hy
    obtain rfl : dst = x := Option.some.inj (h.last.symm.trans hx)
    obtain rfl : v = y := Option.some.inj hy
    exact hedge

/-- A walk stays where it starts, or takes a last edge. -/
theorem cases_snoc (h : Walk edge src ws dst) :
    (ws = [src] ∧ dst = src) ∨ ∃ us u, ws = us ++ [dst] ∧ Walk edge src us u ∧ edge u dst := by
  rcases List.eq_nil_or_concat ws with rfl | ⟨us, w, rfl⟩
  · cases h.head
  obtain rfl : w = dst := by
    have hlast := h.last
    rw [List.concat_eq_append, List.getLast?_concat] at hlast
    exact Option.some.inj hlast
  have hhead := h.head
  rw [List.concat_eq_append] at hhead ⊢
  obtain ⟨hus, -, hjoin⟩ := List.isChain_append.mp (List.concat_eq_append ▸ h.chain)
  cases hu : us.getLast? with
  | none =>
    obtain rfl := List.getLast?_eq_none_iff.mp hu
    obtain rfl : w = src := Option.some.inj hhead
    exact .inl ⟨rfl, rfl⟩
  | some u =>
    have hne : us ≠ [] := by
      rintro rfl
      cases hu
    rw [List.head?_append_of_ne_nil _ hne] at hhead
    exact .inr ⟨us, u, rfl, ⟨hhead, hu, hus⟩, hjoin u hu w rfl⟩

/-- Where walks lead is what can be reached. -/
theorem exists_iff : (∃ ws, Walk edge src ws dst) ↔ Relation.ReflTransGen edge src dst := by
  constructor
  · rintro ⟨ws, h⟩
    induction hn : ws.length generalizing ws dst with
    | zero =>
      obtain rfl := List.length_eq_zero_iff.mp hn
      cases h.head
    | succ n ih =>
      rcases h.cases_snoc with ⟨-, rfl⟩ | ⟨us, u, rfl, hu, hedge⟩
      · exact .refl
      · refine (ih us hu ?_).tail hedge
        rw [List.length_append, List.length_singleton] at hn
        omega
  · intro h
    induction h with
    | refl => exact ⟨[src], Walk.refl edge src⟩
    | tail _ hedge ih =>
      obtain ⟨ws, hws⟩ := ih
      exact ⟨_, hws.snoc hedge⟩

end Walk

/-! ## The order of walks -/

/-- Shorter walks come first, and those of one length in lexicographic order. -/
def rank (ws : List α) : ℕ ×ₗ List α := toLex (ws.length, ws)

theorem rank_lt_of_length [LinearOrder α] {us ws : List α} (h : us.length < ws.length) :
    rank us < rank ws :=
  Prod.Lex.toLex_lt_toLex.mpr (.inl h)

theorem rank_le_iff [LinearOrder α] {us ws : List α} :
    rank us ≤ rank ws ↔ us.length < ws.length ∨ us.length = ws.length ∧ us ≤ ws :=
  Prod.Lex.toLex_le_toLex

theorem rank_lt_snoc [LinearOrder α] (ws : List α) (v : α) : rank ws < rank (ws ++ [v]) :=
  rank_lt_of_length (by rw [List.length_append, List.length_singleton]; omega)

/-- The last vertices do not matter where the walks to them differ. -/
theorem rank_snoc_lt [LinearOrder α] {us ws : List α} (h : rank us < rank ws) (u w : α) :
    rank (us ++ [u]) < rank (ws ++ [w]) := by
  have hlex : ∀ {us ws : List α}, us.length = ws.length → List.Lex (· < ·) us ws →
      List.Lex (· < ·) (us ++ [u]) (ws ++ [w]) := by
    intro us ws hlen hlt
    induction hlt with
    | nil => cases hlen
    | cons _ ih => exact .cons (ih (Nat.succ.inj hlen))
    | rel hlt => exact .rel hlt
  rcases Prod.Lex.toLex_lt_toLex.mp h with hlen | ⟨hlen, hlt⟩
  · refine rank_lt_of_length ?_
    rw [List.length_append, List.length_append, List.length_singleton, List.length_singleton]
    exact Nat.add_lt_add_right hlen 1
  · refine Prod.Lex.toLex_lt_toLex.mpr (.inr ⟨?_, hlex hlen hlt⟩)
    have hlen' : us.length = ws.length := hlen
    simp [hlen']

theorem rank_snoc_le [LinearOrder α] {us ws : List α} (h : rank us ≤ rank ws) (v : α) :
    rank (us ++ [v]) ≤ rank (ws ++ [v]) := by
  rcases h.lt_or_eq with hlt | heq
  · exact (rank_snoc_lt hlt v v).le
  · obtain rfl : us = ws := congrArg Prod.snd (toLex_inj.mp heq)
    exact le_rfl

theorem rank_snoc_lt_of_lt [LinearOrder α] (ws : List α) {u v : α} (h : u < v) :
    rank (ws ++ [u]) < rank (ws ++ [v]) := by
  refine Prod.Lex.toLex_lt_toLex.mpr (.inr ⟨by simp, ?_⟩)
  exact List.Lex.append_left _ (.rel h) ws

/-! ## The search -/

/-- The loop over the neighbours of the vertex in which the path ends: those not seen yet are marked, and
the paths to them queued. -/
def visit [DecidableEq α] (path : List α) :
    List α → List (List α) → List α → List (List α) × List α
  | [], queue, seen => (queue, seen)
  | v :: rest, queue, seen =>
    if v ∈ seen then visit path rest queue seen
    else visit path rest (queue ++ [path ++ [v]]) (v :: seen)

/-- The loop of the search returns after a number of rounds: each takes a path from the queue, and returns
it if it ends in `dst`. -/
inductive Returns [DecidableEq α] (next : α → List α) (dst : α) :
    ℕ → List (List α) → List α → Option (List α) → Prop
  | exhausted {seen : List α} : Returns next dst 1 [] seen none
  | found {path : List α} {queue : List (List α)} {seen : List α} (h : path.getLast? = some dst) :
      Returns next dst 1 (path :: queue) seen (some path)
  | round {n : ℕ} {path : List α} {v : α} {queue : List (List α)} {seen : List α}
      {result : Option (List α)} (hlast : path.getLast? = some v) (hne : v ≠ dst)
      (h : Returns next dst n (visit path (next v) queue seen).1 (visit path (next v) queue seen).2
        result) :
      Returns next dst (n + 1) (path :: queue) seen result

/-- A visit queues paths to the neighbours that are new, each once, in their order. -/
theorem visit_spec [DecidableEq α] (path vs : List α) (queue : List (List α)) (seen : List α) :
    ∃ fresh : List α, fresh.Sublist vs ∧ fresh.Nodup ∧ (∀ v, v ∈ fresh ↔ v ∈ vs ∧ v ∉ seen) ∧
      (visit path vs queue seen).1 = queue ++ fresh.map (fun v => path ++ [v]) ∧
      ∀ v, v ∈ (visit path vs queue seen).2 ↔ v ∈ seen ∨ v ∈ vs := by
  induction vs generalizing queue seen with
  | nil => exact ⟨[], .slnil, .nil, by simp, by simp [visit], by simp [visit]⟩
  | cons u vs ih =>
    unfold visit
    by_cases hu : u ∈ seen
    · obtain ⟨fresh, hsub, hnodup, hmem, hqueue, hseen⟩ := ih queue seen
      rw [if_pos hu]
      refine ⟨fresh, hsub.cons u, hnodup, ?_, hqueue, ?_⟩
      · intro v
        rw [hmem, List.mem_cons]
        constructor
        · rintro ⟨hv, hnot⟩
          exact ⟨.inr hv, hnot⟩
        · rintro ⟨rfl | hv, hnot⟩
          · exact absurd hu hnot
          · exact ⟨hv, hnot⟩
      · intro v
        rw [hseen, List.mem_cons]
        constructor
        · rintro (hv | hv)
          · exact .inl hv
          · exact .inr (.inr hv)
        · rintro (hv | rfl | hv)
          · exact .inl hv
          · exact .inl hu
          · exact .inr hv
    · obtain ⟨fresh, hsub, hnodup, hmem, hqueue, hseen⟩ := ih (queue ++ [path ++ [u]]) (u :: seen)
      have hfresh : u ∉ fresh := fun h => ((hmem u).mp h).2 List.mem_cons_self
      rw [if_neg hu]
      refine ⟨u :: fresh, hsub.cons_cons u, List.nodup_cons.mpr ⟨hfresh, hnodup⟩, ?_, ?_, ?_⟩
      · intro v
        rw [List.mem_cons, hmem, List.mem_cons, List.mem_cons, not_or]
        constructor
        · rintro (rfl | ⟨hv, -, hnot⟩)
          · exact ⟨.inl rfl, hu⟩
          · exact ⟨.inr hv, hnot⟩
        · rintro ⟨rfl | hv, hnot⟩
          · exact .inl rfl
          · by_cases hvu : v = u
            · exact .inl hvu
            · exact .inr ⟨hv, hvu, hnot⟩
      · rw [hqueue, List.map_cons, List.append_assoc]
        rfl
      · intro v
        rw [hseen, List.mem_cons, List.mem_cons, or_assoc, or_left_comm]

/-! ## What the search knows -/

section Explored

variable [LinearOrder α] {next : α → List α} {src dst : α}

/-- An edge leads to each neighbour. -/
def Edge (next : α → List α) (u v : α) : Prop := v ∈ next u

/-- The search after the paths `taken` left the queue. -/
structure Explored (next : α → List α) (src dst : α) (taken queue : List (List α)) (seen : List α) :
    Prop where
  walks : ∀ p ∈ taken ++ queue, ∃ v, Walk (Edge next) src p v
  /-- The paths were found in ascending order. -/
  sorted : (taken ++ queue).Pairwise (rank · < rank ·)
  ends_nodup : ((taken ++ queue).map List.getLast?).Nodup
  seen_iff : ∀ v, v ∈ seen ↔ ∃ p ∈ taken ++ queue, p.getLast? = some v
  origin : ∀ p ∈ taken ++ queue, p = [src] ∨ ∃ q ∈ taken, ∃ v, p = q ++ [v]
  start : [src] ∈ taken ++ queue
  /-- Each neighbour of a vertex that was visited is known, by a path no later than the one through it. -/
  closed : ∀ p ∈ taken, ∀ u, p.getLast? = some u → ∀ v ∈ next u,
    ∃ q ∈ taken ++ queue, q.getLast? = some v ∧ rank q ≤ rank (p ++ [v])
  missed : ∀ p ∈ taken, p.getLast? ≠ some dst

namespace Explored

variable {taken queue : List (List α)} {path : List α} {seen : List α}

theorem init (next : α → List α) (src dst : α) : Explored next src dst [] [[src]] [src] where
  walks p hp := by
    obtain rfl : p = [src] := by simpa using hp
    exact ⟨src, Walk.refl _ src⟩
  sorted := List.pairwise_singleton _ _
  ends_nodup := List.nodup_singleton _
  seen_iff v := by simp [eq_comm]
  origin p hp := .inl (by simpa using hp)
  start := List.mem_singleton_self _
  closed p hp := by cases hp
  missed p hp := by cases hp

/-- The paths to the neighbours come after every path found before. -/
theorem lt_snoc (h : Explored next src dst taken (path :: queue) seen) {p : List α}
    (hp : p ∈ taken ++ path :: queue) (v : α) : rank p < rank (path ++ [v]) := by
  rcases h.origin p hp with rfl | ⟨q, hq, w, rfl⟩
  · obtain ⟨u, hu⟩ := h.walks path (by simp)
    refine rank_lt_of_length ?_
    rcases hu.cases_snoc with ⟨rfl, -⟩ | ⟨us, -, rfl, -⟩ <;> simp
  · -- it is the path to a neighbour of a vertex that left the queue earlier
    have hlt : rank q < rank path :=
      (List.pairwise_append.mp h.sorted).2.2 q hq path List.mem_cons_self
    exact rank_snoc_lt hlt w v

/-- A round keeps what is known. -/
theorem round (h : Explored next src dst taken (path :: queue) seen)
    (hnext : ∀ u, (next u).Pairwise (· ≤ ·)) {u : α} (hu : path.getLast? = some u) (hne : u ≠ dst) :
    Explored next src dst (taken ++ [path]) (visit path (next u) queue seen).1
      (visit path (next u) queue seen).2 := by
  obtain ⟨fresh, hsub, hnodup, hmem, hqueue, hseen⟩ := visit_spec path (next u) queue seen
  have hfound : taken ++ [path] ++ (visit path (next u) queue seen).1 =
      taken ++ path :: queue ++ fresh.map fun v => path ++ [v] := by
    rw [hqueue]
    simp
  have hpath : path ∈ taken ++ path :: queue := by simp
  obtain ⟨u', hwalk⟩ := h.walks path hpath
  obtain rfl : u = u' := Option.some.inj (hu.symm.trans hwalk.last)
  have hascending : fresh.Pairwise (· < ·) :=
    ((hnext u).sublist hsub).imp₂ (fun a b hle hne => lt_of_le_of_ne hle hne) hnodup
  refine ⟨?_, ?_, ?_, ?_, ?_, ?_, ?_, ?_⟩
  · rw [hfound]
    intro p hp
    rcases List.mem_append.mp hp with hp | hp
    · exact h.walks p hp
    · obtain ⟨v, hv, rfl⟩ := List.mem_map.mp hp
      exact ⟨v, hwalk.snoc ((hmem v).mp hv).1⟩
  · rw [hfound]
    refine List.pairwise_append.mpr ⟨h.sorted, ?_, ?_⟩
    · exact List.pairwise_map.mpr (hascending.imp fun hlt => rank_snoc_lt_of_lt path hlt)
    · intro p hp q hq
      obtain ⟨v, -, rfl⟩ := List.mem_map.mp hq
      exact h.lt_snoc hp v
  · rw [hfound, List.map_append, List.map_map]
    have hends : fresh.map (List.getLast? ∘ fun v => path ++ [v]) = fresh.map some :=
      List.map_congr_left fun v _ => List.getLast?_concat
    rw [hends]
    refine List.Nodup.append h.ends_nodup (hnodup.map (Option.some_injective α)) ?_
    intro e he hfresh
    obtain ⟨v, hv, rfl⟩ := List.mem_map.mp hfresh
    obtain ⟨p, hp, hlast⟩ := List.mem_map.mp he
    exact ((hmem v).mp hv).2 ((h.seen_iff v).mpr ⟨p, hp, hlast⟩)
  · intro v
    rw [hseen, h.seen_iff, hfound]
    constructor
    · rintro (⟨p, hp, hlast⟩ | hv)
      · exact ⟨p, List.mem_append_left _ hp, hlast⟩
      · by_cases hold : v ∈ seen
        · obtain ⟨p, hp, hlast⟩ := (h.seen_iff v).mp hold
          exact ⟨p, List.mem_append_left _ hp, hlast⟩
        · have hv' : v ∈ fresh := (hmem v).mpr ⟨hv, hold⟩
          exact ⟨_, List.mem_append_right _ (List.mem_map_of_mem hv'), List.getLast?_concat⟩
    · rintro ⟨p, hp, hlast⟩
      rcases List.mem_append.mp hp with hp | hp
      · exact .inl ⟨p, hp, hlast⟩
      · obtain ⟨w, hw, rfl⟩ := List.mem_map.mp hp
        obtain rfl : w = v := Option.some.inj (List.getLast?_concat.symm.trans hlast)
        exact .inr ((hmem w).mp hw).1
  · rw [hfound]
    intro p hp
    rcases List.mem_append.mp hp with hp | hp
    · rcases h.origin p hp with hsrc | ⟨q, hq, v, hv⟩
      · exact .inl hsrc
      · exact .inr ⟨q, List.mem_append_left _ hq, v, hv⟩
    · obtain ⟨v, -, rfl⟩ := List.mem_map.mp hp
      exact .inr ⟨path, by simp, v, rfl⟩
  · rw [hfound]
    exact List.mem_append_left _ h.start
  · rw [hfound]
    intro p hp w hw v hv
    rcases List.mem_append.mp hp with hp | hp
    · obtain ⟨q, hq, hlast, hle⟩ := h.closed p hp w hw v hv
      exact ⟨q, List.mem_append_left _ hq, hlast, hle⟩
    · -- the vertex that was visited in this round
      obtain rfl := List.mem_singleton.mp hp
      obtain rfl : u = w := Option.some.inj (hu.symm.trans hw)
      by_cases hold : v ∈ seen
      · obtain ⟨q, hq, hlast⟩ := (h.seen_iff v).mp hold
        exact ⟨q, List.mem_append_left _ hq, hlast, (h.lt_snoc hq v).le⟩
      · have hv' : v ∈ fresh := (hmem v).mpr ⟨hv, hold⟩
        exact ⟨_, List.mem_append_right _ (List.mem_map_of_mem hv'), List.getLast?_concat, le_rfl⟩
  · intro p hp
    rcases List.mem_append.mp hp with hp | hp
    · exact h.missed p hp
    · obtain rfl := List.mem_singleton.mp hp
      rw [hu]
      exact fun heq => hne (Option.some.inj heq)

/-- Each walk is known, by a path to its end that is no later, or comes after some path in the queue. -/
theorem walk_known (h : Explored next src dst taken queue seen) {ws : List α} {v : α}
    (hw : Walk (Edge next) src ws v) :
    (∃ p ∈ taken, p.getLast? = some v ∧ rank p ≤ rank ws) ∨ ∃ p ∈ queue, rank p ≤ rank ws := by
  induction hn : ws.length generalizing ws v with
  | zero =>
    obtain rfl := List.length_eq_zero_iff.mp hn
    cases hw.head
  | succ n ih =>
    rcases hw.cases_snoc with ⟨rfl, rfl⟩ | ⟨us, u, rfl, hu, hedge⟩
    · rcases List.mem_append.mp h.start with hp | hp
      · exact .inl ⟨_, hp, rfl, le_rfl⟩
      · exact .inr ⟨_, hp, le_rfl⟩
    · have hlen : us.length = n := by
        rw [List.length_append, List.length_singleton] at hn
        omega
      rcases ih hu hlen with ⟨p, hp, hlast, hle⟩ | ⟨p, hp, hle⟩
      · obtain ⟨q, hq, hqlast, hqle⟩ := h.closed p hp u hlast v hedge
        have hle' := hqle.trans (rank_snoc_le hle v)
        rcases List.mem_append.mp hq with hq | hq
        · exact .inl ⟨q, hq, hqlast, hle'⟩
        · exact .inr ⟨q, hq, hle'⟩
      · exact .inr ⟨p, hp, hle.trans (rank_lt_snoc us v).le⟩

end Explored

/-! ## What the search finds -/

/-- What there is to find: the least walk, or nothing where there is none. -/
def Finds (edge : α → α → Prop) (src dst : α) : Option (List α) → Prop
  | none => ∀ ws, ¬ Walk edge src ws dst
  | some ws => Walk edge src ws dst ∧ ∀ us, Walk edge src us dst → rank ws ≤ rank us

namespace Explored

variable {taken queue : List (List α)} {path : List α} {seen : List α}

theorem finds_none (h : Explored next src dst taken [] seen) : Finds (Edge next) src dst none := by
  intro ws hw
  rcases h.walk_known hw with ⟨p, hp, hlast, -⟩ | ⟨p, hp, -⟩
  · exact h.missed p hp hlast
  · cases hp

theorem finds_some (h : Explored next src dst taken (path :: queue) seen)
    (hlast : path.getLast? = some dst) : Finds (Edge next) src dst (some path) := by
  obtain ⟨v, hwalk⟩ := h.walks path (by simp)
  obtain rfl : dst = v := Option.some.inj (hlast.symm.trans hwalk.last)
  refine ⟨hwalk, fun us hus => ?_⟩
  rcases h.walk_known hus with ⟨p, hp, hplast, -⟩ | ⟨p, hp, hle⟩
  · exact absurd hplast (h.missed p hp)
  · -- the queue is in ascending order
    have hqueue := (List.pairwise_append.mp h.sorted).2.1
    rcases List.mem_cons.mp hp with rfl | hp
    · exact hle
    · exact ((List.pairwise_cons.mp hqueue).1 p hp).le.trans hle

/-- No more paths are found than there are vertices. -/
theorem length_le (h : Explored next src dst taken queue seen) {vs : List α} (hsrc : src ∈ vs)
    (hnext : ∀ u, ∀ v ∈ next u, v ∈ vs) : taken.length + queue.length ≤ vs.length := by
  have hsub : (taken ++ queue).map List.getLast? ⊆ vs.map some := by
    intro e he
    obtain ⟨p, hp, rfl⟩ := List.mem_map.mp he
    obtain ⟨v, hwalk⟩ := h.walks p hp
    rw [hwalk.last]
    refine List.mem_map_of_mem ?_
    rcases hwalk.cases_snoc with ⟨-, rfl⟩ | ⟨-, u, -, -, hedge⟩
    · exact hsrc
    · exact hnext u v hedge
  have hle := (List.subperm_of_subset h.ends_nodup hsub).length_le
  rwa [List.length_map, List.length_append, List.length_map] at hle

/-- From wherever the search has come to, it returns what there is to find. -/
theorem returns (hsorted : ∀ u, (next u).Pairwise (· ≤ ·)) {vs : List α} (hsrc : src ∈ vs)
    (hnext : ∀ u, ∀ v ∈ next u, v ∈ vs) (h : Explored next src dst taken queue seen) :
    ∃ n result, n + taken.length ≤ vs.length + 1 ∧ Returns next dst n queue seen result ∧
      Finds (Edge next) src dst result := by
  induction hk : vs.length - taken.length generalizing taken queue seen with
  | zero =>
    have hlen := h.length_le hsrc hnext
    obtain rfl : queue = [] := List.length_eq_zero_iff.mp (by omega)
    exact ⟨1, none, by omega, .exhausted, h.finds_none⟩
  | succ k ih =>
    cases queue with
    | nil => exact ⟨1, none, by omega, .exhausted, h.finds_none⟩
    | cons path queue =>
      obtain ⟨u, hwalk⟩ := h.walks path (by simp)
      by_cases hu : u = dst
      · subst hu
        exact ⟨1, some path, by omega, .found hwalk.last, h.finds_some hwalk.last⟩
      · obtain ⟨n, result, hn, hreturns, hfinds⟩ :=
          ih (h.round hsorted hwalk.last hu) (by rw [List.length_append, List.length_singleton]; omega)
        rw [List.length_append, List.length_singleton] at hn
        exact ⟨n + 1, result, by omega, .round hwalk.last hu hreturns, hfinds⟩

end Explored

/-- **The search ends, with the least walk or with nothing where there is none.** A round is spent on
each vertex at most, and one on finding the queue empty. -/
theorem search_correct (hsorted : ∀ u, (next u).Pairwise (· ≤ ·)) (src dst : α) {vs : List α}
    (hsrc : src ∈ vs) (hnext : ∀ u, ∀ v ∈ next u, v ∈ vs) :
    ∃ n result, n ≤ vs.length + 1 ∧ Returns next dst n [[src]] [src] result ∧
      Finds (Edge next) src dst result :=
  (Explored.init next src dst).returns hsorted hsrc hnext

/-- There is one least walk. -/
theorem Finds.unique {edge : α → α → Prop} {r r' : Option (List α)} (h : Finds edge src dst r)
    (h' : Finds edge src dst r') : r = r' := by
  cases r with
  | none =>
    cases r' with
    | none => rfl
    | some ws => exact absurd h'.1 (h ws)
  | some us =>
    cases r' with
    | none => exact absurd h.1 (h' us)
    | some ws =>
      have heq := le_antisymm (h.2 ws h'.1) (h'.2 us h.1)
      exact congrArg some (congrArg Prod.snd (toLex_inj.mp heq))

end Explored

end Bfs

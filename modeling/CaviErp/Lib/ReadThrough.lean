import CaviErp.Lib.Unwinding
import Mathlib.Logic.Function.Basic
import Mathlib.Order.Basic

/-!
# Reading through a store whose entries expire

A request asks for a key. It is answered from the store while the entry of the key is fresh, and by the
source otherwise; what the source has is kept from then on. How a store measures time is its policy: what
it stamps an entry with, and until when the stamp is fresh. A store of what was let through in a window is
the case of a source that always has something.
-/

namespace ReadThrough

variable {κ α ε ε' T ι : Type}

/-- What an entry is stamped with at a time, and whether a stamp is fresh at a later one. -/
structure Policy (ε T : Type) where
  stamp : T → ε
  fresh : ε → T → Bool

/-- What has expired stays expired, and what is stamped later expires no earlier. -/
structure Policy.Lawful [LE T] (P : Policy ε T) : Prop where
  expires : ∀ e now now', now ≤ now' → P.fresh e now' = true → P.fresh e now = true
  renews : ∀ t t' now, t ≤ t' → P.fresh (P.stamp t) now = true → P.fresh (P.stamp t') now = true

structure Request (κ α T : Type) where
  key : κ
  now : T
  /-- What the source has for the key, should it be asked. -/
  source : Option α

inductive Answer (α ε : Type) where
  /-- What the store has kept, under its stamp. -/
  | kept (e : ε) (v : α)
  | fetched (v : α)
  | failed

/-- An answer without the stamp. -/
def Answer.bare : Answer α ε → Answer α Unit
  | kept _ v => .kept () v
  | fetched v => .fetched v
  | failed => .failed

def Answer.isKept : Answer α ε → Bool
  | kept _ _ => true
  | _ => false

theorem Answer.isKept_bare (a : Answer α ε) : a.bare.isKept = a.isKept := by
  cases a <;> rfl

/-- The entries of the keys: their stamps, and what was fetched. -/
abbrev Store (κ α ε : Type) := κ → Option (ε × α)

section

variable [DecidableEq κ]

/-- An entry, while it is fresh. -/
def live (P : Policy ε T) (now : T) (entry : Option (ε × α)) : Option (ε × α) :=
  entry.filter fun e => P.fresh e.1 now

def read (P : Policy ε T) (m : Store κ α ε) (r : Request κ α T) : Answer α ε × Store κ α ε :=
  match live P r.now (m r.key), r.source with
  | some (e, v), _ => (.kept e v, m)
  | none, some v => (.fetched v, Function.update m r.key (some (P.stamp r.now, v)))
  | none, none => (.failed, m)

/-- A machine whose inputs are read as requests. -/
def reader (P : Policy ε T) (req : ι → Request κ α T) (m : Store κ α ε) (i : ι) : Answer α ε × Store κ α ε :=
  read P m (req i)

variable {P : Policy ε T}

/-! ## One request -/

theorem live_eq_some {now : T} {e : ε} {entry : Option (ε × α)} {v : α} :
    live P now entry = some (e, v) ↔ entry = some (e, v) ∧ P.fresh e now = true := by
  unfold live
  rw [Option.filter_eq_some_iff]

theorem live_eq_none {now : T} {entry : Option (ε × α)} :
    live P now entry = none ↔ ∀ e v, entry = some (e, v) → P.fresh e now = false := by
  unfold live
  rw [Option.filter_eq_none_iff]
  constructor
  · intro h e v hentry
    exact Bool.eq_false_iff.mpr (h (e, v) hentry)
  · intro h e hentry
    exact Bool.eq_false_iff.mp (h e.1 e.2 hentry)

theorem read_of_live {e : ε} {v : α} {m : Store κ α ε} {r : Request κ α T}
    (h : live P r.now (m r.key) = some (e, v)) : read P m r = (.kept e v, m) := by
  unfold read
  rw [h]

theorem read_of_dead {m : Store κ α ε} {r : Request κ α T} (h : live P r.now (m r.key) = none) :
    read P m r =
      match r.source with
      | some v => (.fetched v, Function.update m r.key (some (P.stamp r.now, v)))
      | none => (.failed, m) := by
  unfold read
  rw [h]
  cases r.source <;> rfl

/-- What a request can do: it is answered from the store, which stays as it is, or there is no entry that
is fresh and the source is asked. -/
theorem read_cases (P : Policy ε T) (m : Store κ α ε) (r : Request κ α T) :
    (∃ e v, m r.key = some (e, v) ∧ P.fresh e r.now = true ∧ read P m r = (.kept e v, m)) ∨
      (∀ e v, m r.key = some (e, v) → P.fresh e r.now = false) ∧
        ((∃ v, r.source = some v ∧
            read P m r = (.fetched v, Function.update m r.key (some (P.stamp r.now, v)))) ∨
          r.source = none ∧ read P m r = (.failed, m)) := by
  unfold read
  cases hlive : live P r.now (m r.key) with
  | some x =>
    obtain ⟨e, v⟩ := x
    obtain ⟨hentry, hfresh⟩ := live_eq_some.mp hlive
    exact .inl ⟨e, v, hentry, hfresh, rfl⟩
  | none =>
    refine .inr ⟨live_eq_none.mp hlive, ?_⟩
    cases hsource : r.source with
    | some v => exact .inl ⟨v, rfl, rfl⟩
    | none => exact .inr ⟨rfl, rfl⟩

theorem source_of_fetched {m : Store κ α ε} {r : Request κ α T} {v : α}
    (h : (read P m r).1 = .fetched v) : r.source = some v := by
  rcases read_cases P m r with ⟨e, w, -, -, hread⟩ | ⟨-, ⟨w, hsource, hread⟩ | ⟨-, hread⟩⟩ <;>
    rw [hread] at h <;> cases h
  exact hsource

theorem source_of_failed {m : Store κ α ε} {r : Request κ α T} (h : (read P m r).1 = .failed) :
    r.source = none := by
  rcases read_cases P m r with ⟨e, w, -, -, hread⟩ | ⟨-, ⟨w, -, hread⟩ | ⟨hsource, -⟩⟩
  · rw [hread] at h
    cases h
  · rw [hread] at h
    cases h
  · exact hsource

end

/-! ## What is kept -/

section

variable {P : Policy ε T} {req : ι → Request κ α T}

/-- The last of the requests of the key that were answered by the source, and what it had. -/
def LastFetch (req : ι → Request κ α T) (past : List (ι × Answer α ε)) (k : κ) (i : ι) (v : α) : Prop :=
  ∃ before after, past = before ++ (i, .fetched v) :: after ∧ (req i).key = k ∧
    ∀ x ∈ after, (req x.1).key = k → ∀ w, x.2 ≠ .fetched w

theorem LastFetch.snoc {past : List (ι × Answer α ε)} {k : κ} {i : ι} {v : α} (h : LastFetch req past k i v)
    {x : ι × Answer α ε} (hx : (req x.1).key = k → ∀ w, x.2 ≠ .fetched w) :
    LastFetch req (past ++ [x]) k i v := by
  obtain ⟨before, after, rfl, hkey, hafter⟩ := h
  refine ⟨before, after ++ [x], by simp, hkey, fun y hy => ?_⟩
  rcases List.mem_append.mp hy with hy | hy
  · exact hafter y hy
  · obtain rfl := List.mem_singleton.mp hy
    exact hx

/-- Of the requests that were answered by the source none is after the last, in any order that the run
follows. -/
theorem LastFetch.after {R : ι → ι → Prop} [Std.Refl R] {past : List (ι × Answer α ε)} {k : κ} {i j : ι}
    {v w : α} (h : LastFetch req past k i v) (horder : (past.map Prod.fst).Pairwise R)
    (hj : (j, Answer.fetched w) ∈ past) (hkey : (req j).key = k) : R j i := by
  obtain ⟨before, after, rfl, -, hafter⟩ := h
  rw [List.map_append, List.pairwise_append] at horder
  rcases List.mem_append.mp hj with hj | hj
  · exact horder.2.2 j (List.mem_map_of_mem hj) i List.mem_cons_self
  · rcases List.mem_cons.mp hj with hj | hj
    · obtain ⟨rfl, -⟩ := Prod.mk.inj hj
      exact Std.Refl.refl j
    · exact absurd rfl (hafter _ hj hkey w)

/-- The store holds what was fetched last, and something for each key that was fetched. -/
structure Remembers (P : Policy ε T) (req : ι → Request κ α T) (past : List (ι × Answer α ε))
    (m : Store κ α ε) : Prop where
  last : ∀ k e v, m k = some (e, v) → ∃ i, LastFetch req past k i v ∧ P.stamp (req i).now = e
  holds : ∀ i w, (i, Answer.fetched w) ∈ past → m (req i).key ≠ none

theorem remembers_nil : Remembers P req [] (fun _ => none : Store κ α ε) :=
  ⟨nofun, nofun⟩

end

section Runs

variable [DecidableEq κ] {P : Policy ε T} {req : ι → Request κ α T} {is : List ι}
  {pre post : List (ι × Answer α ε)} {i : ι}

omit [DecidableEq κ] in
/-- An answer that is not from the source leaves what is remembered. -/
theorem Remembers.pass {past : List (ι × Answer α ε)} {m : Store κ α ε} (h : Remembers P req past m) (i : ι)
    {a : Answer α ε} (ha : ∀ w, a ≠ .fetched w) : Remembers P req (past ++ [(i, a)]) m := by
  constructor
  · intro k e v hk
    obtain ⟨j, hlast, hstamp⟩ := h.last k e v hk
    exact ⟨j, hlast.snoc fun _ => ha, hstamp⟩
  · intro j w hj
    refine h.holds j w ((List.mem_append.mp hj).resolve_right fun hj => ?_)
    exact ha w (Prod.mk.inj (List.mem_singleton.mp hj)).2.symm

theorem Remembers.step {past : List (ι × Answer α ε)} {m : Store κ α ε} (h : Remembers P req past m) (i : ι) :
    Remembers P req (past ++ [(i, (reader P req m i).1)]) (reader P req m i).2 := by
  unfold reader
  rcases read_cases P m (req i) with ⟨e, w, -, -, hread⟩ | ⟨-, ⟨w, -, hread⟩ | ⟨-, hread⟩⟩
  · rw [hread]
    exact h.pass i nofun
  · rw [hread]
    constructor
    · intro k e v hk
      dsimp only at hk
      rw [Function.update_apply] at hk
      by_cases hki : k = (req i).key
      · rw [if_pos hki] at hk
        obtain ⟨rfl, rfl⟩ := Prod.mk.inj (Option.some.inj hk)
        exact ⟨i, ⟨past, [], rfl, hki.symm, nofun⟩, rfl⟩
      · rw [if_neg hki] at hk
        obtain ⟨j, hlast, hstamp⟩ := h.last k e v hk
        exact ⟨j, hlast.snoc fun hkey => absurd hkey.symm hki, hstamp⟩
    · intro j v hj
      show Function.update m (req i).key _ (req j).key ≠ none
      rw [Function.update_apply]
      by_cases hji : (req j).key = (req i).key
      · rw [if_pos hji]
        exact Option.some_ne_none _
      · rw [if_neg hji]
        refine h.holds j v ((List.mem_append.mp hj).resolve_right fun hj => hji ?_)
        rw [(Prod.mk.inj (List.mem_singleton.mp hj)).1]
  · rw [hread]
    exact h.pass i nofun

/-! ## Runs from the empty store -/

theorem remembers_run {x : ι × Answer α ε}
    (h : Unwinding.outputs (reader P req) (fun _ => none) is = pre ++ x :: post) :
    ∃ m, Remembers P req pre m ∧ x.2 = (reader P req m x.1).1 :=
  Unwinding.outputs_invariant (Remembers P req) (fun _ _ i hpast => hpast.step i) [] remembers_nil h

/-- What is answered from the store was fetched last, and is fresh. -/
theorem kept_run {e : ε} {v : α}
    (h : Unwinding.outputs (reader P req) (fun _ => none) is = pre ++ (i, .kept e v) :: post) :
    ∃ j, LastFetch req pre (req i).key j v ∧ P.fresh (P.stamp (req j).now) (req i).now = true := by
  obtain ⟨m, hm, hanswer⟩ := remembers_run h
  unfold reader at hanswer
  rcases read_cases P m (req i) with ⟨e', w, hentry, hfresh, hread⟩ | ⟨-, ⟨w, -, hread⟩ | ⟨-, hread⟩⟩ <;>
    rw [hread] at hanswer <;> cases hanswer
  obtain ⟨j, hlast, hstamp⟩ := hm.last _ _ _ hentry
  exact ⟨j, hlast, hstamp ▸ hfresh⟩

/-- What is fetched is what the source has. -/
theorem fetched_run {v : α}
    (h : Unwinding.outputs (reader P req) (fun _ => none) is = pre ++ (i, .fetched v) :: post) :
    (req i).source = some v := by
  obtain ⟨m, -, hanswer⟩ := remembers_run h
  exact source_of_fetched hanswer.symm

theorem failed_run (h : Unwinding.outputs (reader P req) (fun _ => none) is = pre ++ (i, .failed) :: post) :
    (req i).source = none := by
  obtain ⟨m, -, hanswer⟩ := remembers_run h
  exact source_of_failed hanswer.symm

/-- When a key is fetched again, what was fetched for it before has expired, if the clock did not go
back. -/
theorem fetches_apart [Preorder T] (hP : P.Lawful) (hclock : (is.map fun i => (req i).now).Pairwise (· ≤ ·))
    {v w : α} {j : ι} (h : Unwinding.outputs (reader P req) (fun _ => none) is = pre ++ (i, .fetched v) :: post)
    (hj : (j, Answer.fetched w) ∈ pre) (hkey : (req j).key = (req i).key) :
    P.fresh (P.stamp (req j).now) (req i).now = false := by
  obtain ⟨m, hm, hanswer⟩ := remembers_run h
  have hholds := hm.holds j w hj
  rw [hkey] at hholds
  obtain ⟨⟨e, u⟩, hentry⟩ := Option.ne_none_iff_exists'.mp hholds
  obtain ⟨k, hlast, rfl⟩ := hm.last _ _ _ hentry
  have hpre : pre.map Prod.fst <+: is := by
    refine ⟨((i, Answer.fetched v) :: post).map Prod.fst, ?_⟩
    rw [← List.map_append, ← h]
    exact Unwinding.outputs_inputs _ _ _
  have horder : (pre.map Prod.fst).Pairwise fun a b => (req a).now ≤ (req b).now :=
    List.pairwise_map.mp (hclock.sublist (hpre.sublist.map _))
  have hrefl : Std.Refl fun a b : ι => (req a).now ≤ (req b).now := ⟨fun _ => le_refl _⟩
  have hle : (req j).now ≤ (req k).now := hlast.after horder hj hkey
  unfold reader at hanswer
  rcases read_cases P m (req i) with ⟨e', w', -, -, hread⟩ | ⟨hold, -⟩
  · rw [hread] at hanswer
    cases hanswer
  · refine Bool.eq_false_iff.mpr fun hfresh => ?_
    exact absurd (hP.renews _ _ _ hle hfresh) (Bool.eq_false_iff.mp (hold _ _ hentry))

/-- A request that fails could as well not have been made. -/
theorem outputs_without_failed {m : Store κ α ε}
    (h : Unwinding.outputs (reader P req) m is = pre ++ (i, .failed) :: post) :
    Unwinding.outputs (reader P req) m ((pre ++ post).map Prod.fst) = pre ++ post := by
  induction is generalizing m pre with
  | nil => simp at h
  | cons j is ih =>
    rw [Unwinding.outputs_cons] at h
    cases pre with
    | nil =>
      obtain ⟨hhead, rfl⟩ := List.cons.inj h
      obtain ⟨rfl, hfailed⟩ := Prod.mk.inj hhead
      have hsame : (reader P req m j).2 = m := by
        unfold reader at hfailed ⊢
        rcases read_cases P m (req j) with ⟨e, w, -, -, hread⟩ | ⟨-, ⟨w, -, hread⟩ | ⟨-, hread⟩⟩ <;>
          rw [hread] at hfailed <;> cases hfailed
        rw [hread]
      rw [hsame, List.nil_append, Unwinding.outputs_inputs]
    | cons x pre =>
      obtain ⟨rfl, hrest⟩ := List.cons.inj h
      rw [List.cons_append, List.map_cons, Unwinding.outputs_cons, ih hrest]

/-- Requests of other keys do not show. -/
theorem outputs_of_key (k : κ) (m : Store κ α ε) (is : List ι) :
    (Unwinding.outputs (reader P req) m is).filter (fun x => (req x.1).key = k) =
      Unwinding.outputs (reader P req) m (is.filter fun i => (req i).key = k) := by
  refine Unwinding.outputs_filter (fun i => decide ((req i).key = k))
    (fun s t : Store κ α ε => s k = t k) ?_ ?_ rfl
  · intro i _ hkey s t hst
    have hkey : (req i).key = k := of_decide_eq_true hkey
    unfold reader read
    rw [hkey, hst]
    cases live P (req i).now (t k) with
    | some e => exact ⟨rfl, hst⟩
    | none =>
      cases (req i).source with
      | some v =>
        refine ⟨rfl, ?_⟩
        show Function.update s k _ k = Function.update t k _ k
        rw [Function.update_self, Function.update_self]
      | none => exact ⟨rfl, hst⟩
  · intro i _ hkey s t hst
    have hkey : k ≠ (req i).key := fun h => absurd h.symm (of_decide_eq_false hkey)
    unfold reader
    rcases read_cases P s (req i) with ⟨e, w, -, -, hread⟩ | ⟨-, ⟨w, -, hread⟩ | ⟨-, hread⟩⟩
    · rw [hread]
      exact hst
    · rw [hread]
      exact (Function.update_of_ne hkey ..).trans hst
    · rw [hread]
      exact hst

end Runs

/-! ## Policies that agree -/

section Agree

variable [DecidableEq κ] {P : Policy ε T} {P' : Policy ε' T} {req : ι → Request κ α T}

/-- Whenever an earlier request of the key may have been the last fetch, it is fresh by both policies or by
none. -/
def Concur (P : Policy ε T) (P' : Policy ε' T) (req : ι → Request κ α T) (j i : ι) : Prop :=
  (req j).key = (req i).key →
    P.fresh (P.stamp (req j).now) (req i).now = P'.fresh (P'.stamp (req j).now) (req i).now

/-- Both stores hold the same of each key, fetched by one of the given requests. -/
def Paired (P : Policy ε T) (P' : Policy ε' T) (req : ι → Request κ α T) (past : List ι) (m : Store κ α ε)
    (m' : Store κ α ε') : Prop :=
  ∀ k, m k = none ∧ m' k = none ∨ ∃ j ∈ past, ∃ v, (req j).key = k ∧
    m k = some (P.stamp (req j).now, v) ∧ m' k = some (P'.stamp (req j).now, v)

theorem Paired.step {past : List ι} {m : Store κ α ε} {m' : Store κ α ε'} (h : Paired P P' req past m m')
    {i : ι} (hi : ∀ j ∈ past, Concur P P' req j i) :
    (reader P req m i).1.bare = (reader P' req m' i).1.bare ∧
      Paired P P' req (past ++ [i]) (reader P req m i).2 (reader P' req m' i).2 := by
  have hold : Paired P P' req (past ++ [i]) m m' := by
    intro k
    rcases h k with hnone | ⟨j, hj, v, hjv⟩
    · exact .inl hnone
    · exact .inr ⟨j, List.mem_append_left _ hj, v, hjv⟩
  have hdead : live P (req i).now (m (req i).key) = none → live P' (req i).now (m' (req i).key) = none →
      (reader P req m i).1.bare = (reader P' req m' i).1.bare ∧
        Paired P P' req (past ++ [i]) (reader P req m i).2 (reader P' req m' i).2 := by
    intro hlive hlive'
    unfold reader
    rw [read_of_dead hlive, read_of_dead hlive']
    cases (req i).source with
    | none => exact ⟨rfl, hold⟩
    | some v =>
      refine ⟨rfl, fun k => ?_⟩
      show Function.update m (req i).key _ k = none ∧ Function.update m' (req i).key _ k = none ∨ _
      by_cases hk : k = (req i).key
      · subst hk
        refine .inr ⟨i, List.mem_append_right _ List.mem_cons_self, v, rfl, ?_, ?_⟩
        · exact Function.update_self ..
        · exact Function.update_self ..
      · have hm : Function.update m (req i).key (some (P.stamp (req i).now, v)) k = m k :=
          Function.update_of_ne hk ..
        have hm' : Function.update m' (req i).key (some (P'.stamp (req i).now, v)) k = m' k :=
          Function.update_of_ne hk ..
        dsimp only
        rw [hm, hm']
        exact hold k
  rcases h (req i).key with ⟨hnone, hnone'⟩ | ⟨j, hj, v, hkey, hentry, hentry'⟩
  · exact hdead (by rw [hnone]; rfl) (by rw [hnone']; rfl)
  · have hconcur := hi j hj hkey
    by_cases hfresh : P.fresh (P.stamp (req j).now) (req i).now = true
    · unfold reader
      rw [read_of_live (live_eq_some.mpr ⟨hentry, hfresh⟩),
        read_of_live (live_eq_some.mpr ⟨hentry', hconcur ▸ hfresh⟩)]
      exact ⟨rfl, hold⟩
    · have hstale := Bool.eq_false_iff.mpr hfresh
      refine hdead (live_eq_none.mpr ?_) (live_eq_none.mpr ?_)
      · intro e w hew
        obtain ⟨rfl, -⟩ := Prod.mk.inj (Option.some.inj (hentry.symm.trans hew))
        exact hstale
      · intro e w hew
        obtain ⟨rfl, -⟩ := Prod.mk.inj (Option.some.inj (hentry'.symm.trans hew))
        rw [← hconcur]
        exact hstale

/-- Stores whose policies agree on the requests of a run answer them alike. -/
theorem outputs_agree {is : List ι} (h : is.Pairwise (Concur P P' req)) :
    (Unwinding.outputs (reader P req) (fun _ => none) is).map (fun x => (x.1, x.2.bare)) =
      (Unwinding.outputs (reader P' req) (fun _ => none) is).map fun x => (x.1, x.2.bare) := by
  have hrun : ∀ (is past : List ι) (m : Store κ α ε) (m' : Store κ α ε'), Paired P P' req past m m' →
      (past ++ is).Pairwise (Concur P P' req) →
      (Unwinding.outputs (reader P req) m is).map (fun x => (x.1, x.2.bare)) =
        (Unwinding.outputs (reader P' req) m' is).map fun x => (x.1, x.2.bare) := by
    intro is
    induction is with
    | nil => exact fun _ _ _ _ _ => rfl
    | cons i is ih =>
      intro past m m' hpaired hconcur
      have hi : ∀ j ∈ past, Concur P P' req j i := fun j hj =>
        (List.pairwise_append.mp hconcur).2.2 j hj i List.mem_cons_self
      obtain ⟨hanswer, hnext⟩ := hpaired.step hi
      rw [Unwinding.outputs_cons, Unwinding.outputs_cons, List.map_cons, List.map_cons, hanswer,
        ih (past ++ [i]) _ _ hnext (by rwa [List.append_assoc])]
  exact hrun is [] _ _ (fun _ => .inl ⟨rfl, rfl⟩) h

end Agree

/-! ## Stores that answer alike -/

section Alike

variable [DecidableEq κ] [Preorder T] {P : Policy ε T}

/-- From the given time on the stores have the same entries. -/
def Alike (P : Policy ε T) (now : T) (m m' : Store κ α ε) : Prop := ∀ k, live P now (m k) = live P now (m' k)

omit [DecidableEq κ] in
theorem Alike.later (hP : P.Lawful) {now now' : T} {m m' : Store κ α ε} (h : Alike P now m m')
    (hle : now ≤ now') : Alike P now' m m' := by
  have hlater : ∀ entry : Option (ε × α), live P now' (live P now entry) = live P now' entry := by
    intro entry
    unfold live
    rw [Option.filter_filter]
    refine congrArg (Option.filter · entry) (funext fun e => ?_)
    have himp := hP.expires e.1 now now' hle
    cases hfresh : P.fresh e.1 now' with
    | false => rw [Bool.and_false]
    | true => rw [himp hfresh, Bool.and_true]
  intro k
  rw [← hlater, h k, hlater]

omit [Preorder T] in
theorem Alike.read {r : Request κ α T} {m m' : Store κ α ε} (h : Alike P r.now m m') :
    (read P m r).1 = (read P m' r).1 ∧ Alike P r.now (read P m r).2 (read P m' r).2 := by
  unfold ReadThrough.read
  rw [h r.key]
  cases live P r.now (m' r.key) with
  | some e => exact ⟨rfl, h⟩
  | none =>
    cases r.source with
    | none => exact ⟨rfl, h⟩
    | some v =>
      refine ⟨rfl, fun k => ?_⟩
      dsimp only
      rw [Function.update_apply, Function.update_apply]
      by_cases hk : k = r.key
      · rw [if_pos hk, if_pos hk]
      · rw [if_neg hk, if_neg hk]
        exact h k

/-- A machine that answers each request as the store does, and has afterwards the same entries as it, may
drop those that have expired: as long as the clock does not go back, nobody notices. -/
theorem outputs_eq_reader {σ ο : Type} {step : σ → ι → ο × σ} {req : ι → Request κ α T} (hP : P.Lawful)
    (view : σ → Store κ α ε) (answer : ι → Answer α ε → ο) {is : List ι}
    (hstep : ∀ i ∈ is, ∀ s, (step s i).1 = answer i (read P (view s) (req i)).1 ∧
      Alike P (req i).now (view (step s i).2) (read P (view s) (req i)).2)
    (hclock : (is.map fun i => (req i).now).Pairwise (· ≤ ·)) {s : σ} {m : Store κ α ε}
    (h : ∀ i ∈ is, Alike P (req i).now (view s) m) :
    Unwinding.outputs step s is =
      (Unwinding.outputs (reader P req) m is).map fun x => (x.1, answer x.1 x.2) := by
  induction is generalizing s m with
  | nil => rfl
  | cons i is ih =>
    obtain ⟨hanswer, hstate⟩ := hstep i List.mem_cons_self s
    obtain ⟨hsame, hnext⟩ := (h i List.mem_cons_self).read
    obtain ⟨hle, hclock⟩ := List.pairwise_cons.mp hclock
    have hrest : ∀ j ∈ is, Alike P (req j).now (view (step s i).2) (reader P req m i).2 := by
      intro j hj
      refine Alike.later hP (fun k => (hstate k).trans (hnext k)) ?_
      exact hle _ (List.mem_map_of_mem (f := fun i => (req i).now) hj)
    rw [Unwinding.outputs_cons, Unwinding.outputs_cons, List.map_cons,
      ih (fun j hj => hstep j (List.mem_cons_of_mem _ hj)) hclock hrest, hanswer, hsame]
    rfl

end Alike

end ReadThrough

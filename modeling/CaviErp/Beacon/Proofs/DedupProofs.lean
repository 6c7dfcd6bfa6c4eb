import CaviErp.Beacon.Proofs.IsolationProofs
import CaviErp.Lib.ReadThrough

/-!
# The dedup stores

One store compares the time of the last alert with the clock, the other lets its keys expire. Both keep
when a key was let through, each in its own cells, and let it through again once the window is over.
-/

namespace CaviErp

open Py ReadThrough

/-- A call of `is_duplicate`, with the clock reading of it. -/
structure DedupCall where
  key : String
  now : ℚ
deriving DecidableEq

/-- The calls of a run from the empty store, each with whether it was a duplicate. -/
def DedupStore.answers (store : DedupStore (String → Option ℚ)) (window : Nat) (calls : List DedupCall) :
    List (DedupCall × Bool) :=
  Unwinding.outputs (fun s call => store.isDuplicate call.key window call.now s) (fun _ => none) calls

/-- Of each key, one call is let through in a window, and every other is suppressed; the time from one
reading of the clock to another is measured by `elapsed`. -/
structure Windowed (elapsed : ℚ → ℚ → ℚ) (window : Nat) (run : List (DedupCall × Bool)) : Prop where
  accepted : ∀ pre call post, run = pre ++ (call, false) :: post →
    ∀ earlier, (earlier, false) ∈ pre → earlier.key = call.key → (window : ℚ) ≤ elapsed call.now earlier.now
  suppressed : ∀ pre call post, run = pre ++ (call, true) :: post →
    ∃ before latest after, pre = before ++ (latest, false) :: after ∧ latest.key = call.key ∧
      (∀ x ∈ after, x.1.key = call.key → x.2 = true) ∧
      latest.now ≤ call.now ∧ elapsed call.now latest.now < (window : ℚ)

/-- Calls on other keys do not show in the answers for a key. -/
def DedupStore.KeysApart (store : DedupStore (String → Option ℚ)) (window : Nat) (calls : List DedupCall) :
    Prop :=
  ∀ key, (store.answers window calls).filter (fun x => x.1.key = key) =
    store.answers window (calls.filter fun call => call.key = key)

/-- No difference of two readings for one key is rounded across the window. -/
def Unrounded (window : Nat) (calls : List DedupCall) : Prop :=
  calls.Pairwise fun earlier later => earlier.key = later.key →
    (Binary64.sub later.now earlier.now < (window : ℚ) ↔ later.now - earlier.now < (window : ℚ))

/-! ## Both stores read through -/

/-- A key that is let through is fetched anew. -/
def DedupCall.request (call : DedupCall) : ReadThrough.Request String Unit ℚ := ⟨call.key, call.now, some ()⟩

/-- The cell tells when it was set, and the clocks are subtracted. -/
def memoryPolicy (window : Nat) : Policy ℚ ℚ where
  stamp now := now
  fresh last now := Binary64.sub now last < (window : ℚ)

/-- The cell tells when it expires. -/
def redisPolicy (window : Nat) : Policy ℚ ℚ where
  stamp now := now + window
  fresh expires now := now < expires

theorem memoryPolicy_lawful (window : Nat) : (memoryPolicy window).Lawful := by
  constructor
  · intro last now now' hle hfresh
    have hlt : Binary64.sub now' last < (window : ℚ) := of_decide_eq_true hfresh
    exact decide_eq_true ((Binary64.sub_mono hle (le_refl last)).trans_lt hlt)
  · intro t t' now hle hfresh
    have hlt : Binary64.sub now t < (window : ℚ) := of_decide_eq_true hfresh
    exact decide_eq_true ((Binary64.sub_mono (le_refl now) hle).trans_lt hlt)

theorem redisPolicy_lawful (window : Nat) : (redisPolicy window).Lawful := by
  constructor
  · intro expires now now' hle hfresh
    have hlt : now' < expires := of_decide_eq_true hfresh
    exact decide_eq_true (hle.trans_lt hlt)
  · intro t t' now hle hfresh
    have hlt : now < t + window := of_decide_eq_true hfresh
    exact decide_eq_true (hlt.trans_le (add_le_add_left hle _))

/-- A policy by which a stamp is fresh as long as less than the window has elapsed since. -/
def Measures (elapsed : ℚ → ℚ → ℚ) (window : Nat) (P : Policy ℚ ℚ) : Prop :=
  ∀ t now, P.fresh (P.stamp t) now = decide (elapsed now t < (window : ℚ))

theorem memoryPolicy_measures (window : Nat) : Measures Binary64.sub window (memoryPolicy window) :=
  fun _ _ => rfl

theorem redisPolicy_measures (window : Nat) : Measures (· - ·) window (redisPolicy window) := by
  intro t now
  exact decide_eq_decide.mpr sub_lt_iff_lt_add'.symm

def readerAnswers (P : Policy ℚ ℚ) (calls : List DedupCall) : List (DedupCall × Answer Unit ℚ) :=
  Unwinding.outputs (reader P DedupCall.request) (fun _ => none) calls

/-- What a store of cells has kept. -/
def cellsView (cell : String → String) (s : String → Option ℚ) : Store String Unit ℚ :=
  fun key => (s (cell key)).map fun x => (x, ())

theorem cellsView_update {cell : String → String} (hcell : Function.Injective cell)
    (s : String → Option ℚ) (key : String) (x : ℚ) :
    cellsView cell (Function.update s (cell key) (some x)) =
      Function.update (cellsView cell s) key (some (x, ())) := by
  funext k
  unfold cellsView
  rw [Function.update_apply, Function.update_apply]
  by_cases hk : k = key
  · rw [if_pos hk, if_pos (congrArg cell hk)]
    rfl
  · rw [if_neg hk, if_neg fun h => hk (hcell h)]

/-- A store of cells reads through, by the policy of its stamps. -/
theorem cellStore_answers {cell : String → String} (hcell : Function.Injective cell)
    {seen : Nat → ℚ → ℚ → Bool} {stamp : Nat → ℚ → ℚ} {window : Nat} {P : Policy ℚ ℚ} (hP : P.Lawful)
    (hstamp : ∀ now, stamp window now = P.stamp now) (hseen : ∀ now x, seen window now x = P.fresh x now)
    {calls : List DedupCall} (hclock : (calls.map DedupCall.now).Pairwise (· ≤ ·)) :
    (cellStore cell seen stamp).answers window calls =
      (readerAnswers P calls).map fun x => (x.1, x.2.isKept) := by
  refine outputs_eq_reader hP (cellsView cell) (fun _ => Answer.isKept) (fun call _ s => ?_) hclock
    fun _ _ _ => rfl
  have hstep : (cellStore cell seen stamp).isDuplicate call.key window call.now s =
      if (s (cell call.key)).any (seen window call.now) = true then (true, s)
      else (false, Function.update s (cell call.key) (some (stamp window call.now))) := rfl
  rcases read_cases P (cellsView cell s) call.request with
    ⟨x, u, hentry, hfresh, hread⟩ | ⟨hold, ⟨u, -, hread⟩ | ⟨hnone, -⟩⟩
  · obtain ⟨y, hy, hyx⟩ := Option.map_eq_some_iff.mp hentry
    have hy : s (cell call.key) = some y := hy
    obtain rfl : y = x := congrArg Prod.fst hyx
    have hany : (s (cell call.key)).any (seen window call.now) = true := by
      rw [hy, Option.any_some, hseen]
      exact hfresh
    rw [hstep, if_pos hany, hread]
    exact ⟨rfl, fun _ => rfl⟩
  · have hany : ¬ (s (cell call.key)).any (seen window call.now) = true := by
      intro hany
      obtain ⟨x, hx, hin⟩ := (Option.any_eq_true ..).mp hany
      rw [hseen] at hin
      have hentry : cellsView cell s call.key = some (x, ()) := by
        unfold cellsView
        rw [hx]
        rfl
      exact absurd hin (Bool.eq_false_iff.mp (hold _ _ hentry))
    rw [hstep, if_neg hany, hread, cellsView_update hcell, hstamp]
    exact ⟨rfl, fun _ => rfl⟩
  · cases hnone

theorem inMemoryDedupStore_answers (window : Nat) {calls : List DedupCall}
    (hclock : (calls.map DedupCall.now).Pairwise (· ≤ ·)) :
    inMemoryDedupStore.answers window calls =
      (readerAnswers (memoryPolicy window) calls).map fun x => (x.1, x.2.isKept) := by
  rw [inMemoryDedupStore_eq]
  exact cellStore_answers Function.injective_id (memoryPolicy_lawful window) (fun _ => rfl)
    (fun _ _ => rfl) hclock

theorem redisDedupStore_answers (redisNamespace : String) (window : Nat) {calls : List DedupCall}
    (hclock : (calls.map DedupCall.now).Pairwise (· ≤ ·)) :
    (redisDedupStore redisNamespace).answers window calls =
      (readerAnswers (redisPolicy window) calls).map fun x => (x.1, x.2.isKept) := by
  have hcell : Function.Injective fun key => redisNamespace ++ ":" ++ key := fun _ _ h =>
    (String.append_right_inj _).mp h
  rw [redisDedupStore_eq]
  exact cellStore_answers hcell (redisPolicy_lawful window) (fun _ => rfl) (fun _ _ => rfl) hclock

/-! ## Windows -/

section

variable {window : Nat} {P : Policy ℚ ℚ} {elapsed : ℚ → ℚ → ℚ} {calls : List DedupCall}

/-- Where the past of a call in the run of a store ends, so does its past in the reading. -/
theorem readerAnswers_split {pre post : List (DedupCall × Bool)} {x : DedupCall × Bool}
    (h : (readerAnswers P calls).map (fun x => (x.1, x.2.isKept)) = pre ++ x :: post) :
    ∃ pre' a post', readerAnswers P calls = pre' ++ (x.1, a) :: post' ∧
      pre = pre'.map (fun x => (x.1, x.2.isKept)) ∧ x.2 = a.isKept := by
  obtain ⟨pre', ⟨call, a⟩, post', hsplit, hpre, rfl, -⟩ := Unwinding.exists_split h
  exact ⟨pre', a, post', hsplit, hpre.symm, rfl⟩

theorem answer_of_not_kept {a : Answer Unit ℚ} {calls : List DedupCall}
    {pre post : List (DedupCall × Answer Unit ℚ)} {call : DedupCall}
    (h : readerAnswers P calls = pre ++ (call, a) :: post) (ha : a.isKept = false) :
    a = .fetched () := by
  cases a with
  | kept e u => cases ha
  | fetched u => rfl
  | failed => cases failed_run h

theorem windowed_readerAnswers (hP : P.Lawful) (hmeasures : Measures elapsed window P)
    (hclock : (calls.map DedupCall.now).Pairwise (· ≤ ·)) :
    Windowed elapsed window ((readerAnswers P calls).map fun x => (x.1, x.2.isKept)) := by
  constructor
  · intro pre call post h earlier hearlier hkey
    obtain ⟨pre', a, post', hsplit, rfl, ha⟩ := readerAnswers_split h
    obtain ⟨⟨call', b⟩, hmem, hx⟩ := List.mem_map.mp hearlier
    obtain rfl : call' = earlier := congrArg Prod.fst hx
    have hb : b = .fetched () := by
      obtain ⟨before, after, rfl⟩ := List.append_of_mem hmem
      rw [List.append_assoc, List.cons_append] at hsplit
      exact answer_of_not_kept hsplit (congrArg Prod.snd hx)
    subst hb
    obtain rfl := answer_of_not_kept hsplit ha.symm
    have hstale : P.fresh (P.stamp call'.now) call.now = false := fetches_apart hP hclock hsplit hmem hkey
    rw [hmeasures] at hstale
    exact not_lt.mp (of_decide_eq_false hstale)
  · intro pre call post h
    obtain ⟨pre', a, post', hsplit, rfl, ha⟩ := readerAnswers_split h
    cases a with
    | fetched u => cases ha
    | failed => cases ha
    | kept e u =>
      obtain ⟨latest, ⟨before, after, rfl, hkey, hafter⟩, hfresh⟩ := kept_run hsplit
      have hfresh : P.fresh (P.stamp latest.now) call.now = true := hfresh
      rw [hmeasures] at hfresh
      refine ⟨before.map (fun x => (x.1, x.2.isKept)), latest, after.map (fun x => (x.1, x.2.isKept)),
        ?_, hkey, ?_, ?_, of_decide_eq_true hfresh⟩
      · rw [List.map_append, List.map_cons]
        rfl
      · intro x hx hxkey
        obtain ⟨⟨later, b⟩, hmem, rfl⟩ := List.mem_map.mp hx
        obtain ⟨mid, last, rfl⟩ := List.append_of_mem hmem
        by_contra hb
        have hfetched : b = .fetched () := by
          have hsplit' : readerAnswers P calls =
              (before ++ (latest, .fetched u) :: mid) ++ (later, b) :: (last ++ (call, .kept e u) :: post') := by
            rw [hsplit]
            simp
          exact answer_of_not_kept hsplit' (by simpa using hb)
        exact hafter _ hmem hxkey () hfetched
      · -- the clock does not go back
        have hcalls : calls = (before.map Prod.fst ++ latest :: after.map Prod.fst) ++ call :: post'.map Prod.fst := by
          have hfst := congrArg (List.map Prod.fst) hsplit
          rw [show (readerAnswers P calls).map Prod.fst = calls from Unwinding.outputs_inputs ..] at hfst
          rw [hfst]
          simp
        rw [hcalls, List.map_append, List.pairwise_append] at hclock
        exact hclock.2.2 _ (by simp) _ (by simp)

/-- A store that reads through answers for each key by itself. -/
theorem keysApart_of_reader {store : DedupStore (String → Option ℚ)}
    (hstore : ∀ calls : List DedupCall, (calls.map DedupCall.now).Pairwise (· ≤ ·) →
      store.answers window calls = (readerAnswers P calls).map fun x => (x.1, x.2.isKept))
    (hclock : (calls.map DedupCall.now).Pairwise (· ≤ ·)) : store.KeysApart window calls := by
  intro key
  have hsub : ((calls.filter fun call => decide (call.key = key)).map DedupCall.now).Pairwise (· ≤ ·) :=
    hclock.sublist (List.filter_sublist.map DedupCall.now)
  have hfilter : (readerAnswers P calls).filter (fun x => decide (x.1.request.key = key)) =
      readerAnswers P (calls.filter fun call => decide (call.request.key = key)) := outputs_of_key key _ calls
  rw [hstore calls hclock, hstore _ hsub, List.filter_map]
  exact congrArg _ hfilter

/-- Where no difference is rounded across the window, both policies let the same calls through. -/
theorem readerAnswers_agree (hrounded : Unrounded window calls) :
    (readerAnswers (redisPolicy window) calls).map (fun x => (x.1, x.2.isKept)) =
      (readerAnswers (memoryPolicy window) calls).map fun x => (x.1, x.2.isKept) := by
  have hconcur : calls.Pairwise (Concur (redisPolicy window) (memoryPolicy window) DedupCall.request) := by
    refine hrounded.imp fun {earlier later} h hkey => ?_
    rw [redisPolicy_measures, memoryPolicy_measures]
    exact decide_eq_decide.mpr (h hkey).symm
  have hbare := congrArg (List.map fun x : DedupCall × Answer Unit Unit => (x.1, x.2.isKept))
    (outputs_agree hconcur)
  rw [List.map_map, List.map_map] at hbare
  simp only [Function.comp_def, Answer.isKept_bare] at hbare
  exact hbare

end

/-- Each store lets one call of a key through in a window, the one in memory by the difference of floats
and Redis by the exact one; calls of other keys do not show; and the stores answer alike where no
difference is rounded across the window. -/
theorem dedup_stores_agree (redisNamespace : String) (window : Nat) (calls : List DedupCall)
    (hclock : (calls.map DedupCall.now).Pairwise (· ≤ ·)) :
    Windowed Binary64.sub window (inMemoryDedupStore.answers window calls) ∧
      Windowed (· - ·) window ((redisDedupStore redisNamespace).answers window calls) ∧
      inMemoryDedupStore.KeysApart window calls ∧ (redisDedupStore redisNamespace).KeysApart window calls ∧
      (Unrounded window calls →
        (redisDedupStore redisNamespace).answers window calls = inMemoryDedupStore.answers window calls) := by
  have hmemory := inMemoryDedupStore_answers window hclock
  have hredis := redisDedupStore_answers redisNamespace window hclock
  refine ⟨?_, ?_, ?_, ?_, fun hrounded => ?_⟩
  · rw [hmemory]
    exact windowed_readerAnswers (memoryPolicy_lawful window) (memoryPolicy_measures window) hclock
  · rw [hredis]
    exact windowed_readerAnswers (redisPolicy_lawful window) (redisPolicy_measures window) hclock
  · exact keysApart_of_reader (fun _ => inMemoryDedupStore_answers window) hclock
  · exact keysApart_of_reader (fun _ => redisDedupStore_answers redisNamespace window) hclock
  · rw [hredis, hmemory]
    exact readerAnswers_agree hrounded

/-- Calls on two keys, the last of them where the window of the first ends. -/
def callsAtWindow : List DedupCall := [⟨"a", 0⟩, ⟨"b", 10⟩, ⟨"a", 299⟩, ⟨"a", 300⟩]

theorem dedup_stores_agree_at_window :
    Windowed Binary64.sub 300 (inMemoryDedupStore.answers 300 callsAtWindow) ∧
      (redisDedupStore "beacon:dedup").answers 300 callsAtWindow =
        inMemoryDedupStore.answers 300 callsAtWindow := by
  have hclock : (callsAtWindow.map DedupCall.now).Pairwise (· ≤ ·) := by
    simp [callsAtWindow]
    norm_num
  obtain ⟨hmemory, -, -, -, hagree⟩ := dedup_stores_agree "beacon:dedup" 300 callsAtWindow hclock
  refine ⟨hmemory, hagree ?_⟩
  have hsub : ∀ m n : Nat, m ≤ n → n ≤ 300 → Binary64.sub (n : ℚ) (m : ℚ) = (n : ℚ) - m := by
    intro m n hle hn
    have hdouble : Binary64.IsDouble (((n : Int) - m : Int) : ℚ) := Binary64.isDouble_intCast (by
      rw [abs_lt]
      omega)
    exact Binary64.sub_of_isDouble (by exact_mod_cast hdouble)
  have h299 := hsub 0 299 (by omega) (by omega)
  have h300 := hsub 0 300 (by omega) (by omega)
  have h1 := hsub 299 300 (by omega) (by omega)
  push_cast at h299 h300 h1
  simp [Unrounded, callsAtWindow, h299, h300, h1]

/-- Two readings of the clock, 8.272 and 308.272 as floats, whose difference is less than 300 and is rounded
to it. -/
def callsAcrossWindow : List DedupCall :=
  [⟨"a", 4656722014701093 / 2 ^ 49⟩, ⟨"a", 5423178376284209 / 2 ^ 44⟩]

/-- The store in memory lets a call through that Redis suppresses, before the window is over. -/
theorem dedup_stores_differ :
    (∀ call ∈ callsAcrossWindow, Binary64.IsDouble call.now) ∧
      (callsAcrossWindow.map DedupCall.now).Pairwise (· ≤ ·) ∧
      (redisDedupStore "beacon:dedup").answers 300 callsAcrossWindow ≠
        inMemoryDedupStore.answers 300 callsAcrossWindow ∧
      ¬ Windowed (· - ·) 300 (inMemoryDedupStore.answers 300 callsAcrossWindow) := by
  have hmemory : inMemoryDedupStore.answers 300 callsAcrossWindow =
      [(⟨"a", 4656722014701093 / 2 ^ 49⟩, false), (⟨"a", 5423178376284209 / 2 ^ 44⟩, false)] := by
    decide +kernel
  have hredis : (redisDedupStore "beacon:dedup").answers 300 callsAcrossWindow =
      [(⟨"a", 4656722014701093 / 2 ^ 49⟩, false), (⟨"a", 5423178376284209 / 2 ^ 44⟩, true)] := by
    decide +kernel
  refine ⟨?_, ?_, ?_, fun h => ?_⟩
  · simp only [callsAcrossWindow, List.forall_mem_cons]
    refine ⟨⟨4656722014701093, -49, by norm_num, by omega, by omega, by norm_num⟩,
      ⟨5423178376284209, -44, by norm_num, by omega, by omega, by norm_num⟩, nofun⟩
  · simp [callsAcrossWindow]
    norm_num
  · rw [hmemory, hredis]
    decide +kernel
  · rw [hmemory] at h
    have hapart := h.accepted [(⟨"a", 4656722014701093 / 2 ^ 49⟩, false)] _ [] rfl _ List.mem_cons_self rfl
    norm_num at hapart

end CaviErp

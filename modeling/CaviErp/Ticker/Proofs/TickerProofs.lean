import CaviErp.Lib.Proofs.DecimalProofs
import CaviErp.Lib.Proofs.DoubleProofs
import CaviErp.Lib.ReadThrough
import CaviErp.Ticker.Ticker

/-!
# Rates that are read through the cache

The cache maps a pair to a text and deletes what has expired. An observer who cannot see past the expiry of
an entry takes it for the store of what the rate source answered last, and so each rate that is returned
was answered for its pair less than the time to live ago.
-/

namespace CaviErp

namespace Ticker

open Py ReadThrough

/-! ## Texts and keys -/

/-- What is written to the cache is read as it was, if a clock reading is read as it was. -/
theorem decode_encode {rate : Rate} (h : (Binary64.finite rate.asOf).reread = .finite rate.asOf) :
    decode (encode rate) = .ok rate := by
  unfold decode encode
  rw [loads_dumps]
  simp [Json.reread, Json.rereadItems, Obj.set, textItem, numberItem, item, Obj.get?, List.lookup_cons, h,
    Decimal.ofText_str, bind, Except.bind, pure, Except.pure]

theorem length_upper (code : String) : (upper code).toList.length = code.toList.length := by
  unfold upper
  rw [String.toList_ofList, List.length_map]

/-- Pairs of codes have keys of their own. -/
theorem cacheKey_inj {base base' quote quote' : String} (hbase : IsCode base) (hbase' : IsCode base')
    (h : cacheKey (upper base) (upper quote) = cacheKey (upper base') (upper quote')) :
    upper base = upper base' ∧ upper quote = upper quote' := by
  have hlength : (upper base).toList.length = (upper base').toList.length := by
    rw [length_upper, length_upper, hbase.1, hbase'.1]
  have hkeys := congrArg String.toList h
  unfold cacheKey at hkeys
  simp only [String.toList_append, List.append_assoc, List.append_cancel_left_eq] at hkeys
  obtain ⟨hbases, hquotes⟩ := List.append_inj hkeys hlength
  exact ⟨String.toList_injective hbases, String.toList_injective (List.append_cancel_left hquotes)⟩

/-! ## The cache as a store -/

/-- What the source answered, as a rate of the requested pair. -/
def rateFor (call : Lookup) (answer : Decimal) : Rate :=
  ⟨upper call.base, upper call.quote, answer, call.now⟩

def answerFor (call : Lookup) : Except RateNotFound Decimal := call.fetch (upper call.base) (upper call.quote)

/-- A lookup asks for a key; what is kept is what the text of the rate is read as. -/
def request (call : Lookup) : ReadThrough.Request String (Except TickerError Rate) ℚ where
  key := cacheKey (upper call.base) (upper call.quote)
  now := call.now
  source := (answerFor call).toOption.map fun answer => decode (encode (rateFor call answer))

/-- What a lookup returns and fetches that finds nothing in the cache. -/
def sourced (call : Lookup) : Except TickerError Rate × List Fetch :=
  (((answerFor call).mapError .rateNotFound).map (rateFor call),
    [⟨upper call.base, upper call.quote, call.now, answerFor call⟩])

/-- What a lookup returns and fetches, by how the store answers its request. -/
def reply (call : Lookup) : Answer (Except TickerError Rate) ℚ → Except TickerError Rate × List Fetch
  | .kept _ r => (r, [])
  | .fetched _ => sourced call
  | .failed => sourced call

variable {ttl : Int}

/-- An entry is stamped with the instant of its expiry. -/
def cachePolicy (ttl : Int) : Policy ℚ ℚ where
  stamp := expiry ttl
  fresh expiresAt now := now < expiresAt

theorem cachePolicy_lawful (ttl : Int) : (cachePolicy ttl).Lawful := by
  constructor
  · intro expiresAt now now' hle hfresh
    have hlt : now' < expiresAt := of_decide_eq_true hfresh
    exact decide_eq_true (hle.trans_lt hlt)
  · intro t t' now hle hfresh
    have hlt : now < expiry ttl t := of_decide_eq_true hfresh
    exact decide_eq_true (hlt.trans_le (Binary64.add_mono hle (le_refl _)))

/-- The entries of a cache: when they expire, and what their texts are read as. -/
def view (s : InMemoryCache) : Store String (Except TickerError Rate) ℚ := fun key =>
  (s key).map fun e => (e.1, decode e.2)

theorem view_update (s : InMemoryCache) (key : String) (entry : Option (ℚ × String)) :
    view (Function.update s key entry) =
      Function.update (view s) key (entry.map fun e => (e.1, decode e.2)) := by
  funext k
  unfold view
  rw [Function.update_apply, Function.update_apply]
  split
  · rfl
  · rfl

/-- A lookup finds in the cache what is alive in the store, and leaves the entries that are. -/
theorem get_view (ttl : Int) (key : String) (now : ℚ) (s : InMemoryCache) :
    (InMemoryCache.get key now s).1.map decode = (live (cachePolicy ttl) now (view s key)).map Prod.snd ∧
      Alike (cachePolicy ttl) now (view (InMemoryCache.get key now s).2) (view s) := by
  unfold InMemoryCache.get
  cases hentry : s key with
  | none =>
    have hview : view s key = none := by
      unfold view
      rw [hentry]
      rfl
    refine ⟨?_, fun _ => rfl⟩
    rw [hview]
    rfl
  | some e =>
    obtain ⟨expiresAt, value⟩ := e
    have hview : view s key = some (expiresAt, decode value) := by
      unfold view
      rw [hentry]
      rfl
    dsimp only
    by_cases hexpired : expiresAt ≤ now
    · have hdead : live (cachePolicy ttl) now (view s key) = none := by
        rw [hview, live_eq_none]
        intro e v h
        obtain ⟨rfl, -⟩ := Prod.mk.inj (Option.some.inj h)
        exact decide_eq_false (not_lt.mpr hexpired)
      rw [if_pos hexpired, hdead]
      refine ⟨rfl, fun k => ?_⟩
      rw [view_update, Function.update_apply]
      by_cases hk : k = key
      · rw [if_pos hk, hk, hdead]
        rfl
      · rw [if_neg hk]
    · have halive : live (cachePolicy ttl) now (view s key) = some (expiresAt, decode value) := by
        rw [hview, live_eq_some]
        exact ⟨rfl, decide_eq_true (not_le.mp hexpired)⟩
      rw [if_neg hexpired, halive]
      exact ⟨rfl, fun _ => rfl⟩

/-- A lookup returns what it finds; otherwise it asks the source, and keeps what the source answers. -/
theorem step_eq (call : Lookup) (s : InMemoryCache) :
    step InMemoryCache.backend ttl s call =
      match (InMemoryCache.get (request call).key call.now s).1 with
      | some blob => ((decode blob, []), (InMemoryCache.get (request call).key call.now s).2)
      | none =>
        (sourced call,
          match answerFor call with
          | .ok answer =>
            InMemoryCache.set (request call).key (encode (rateFor call answer)) ttl call.now
              (InMemoryCache.get (request call).key call.now s).2
          | .error _ => (InMemoryCache.get (request call).key call.now s).2) := by
  have hbackend : ∀ key now, InMemoryCache.backend.get key now s = InMemoryCache.get key now s :=
    fun _ _ => rfl
  unfold step getRate
  simp only [Action.bind_apply, cacheGet, hbackend]
  rw [show cacheKey (upper call.base) (upper call.quote) = (request call).key from rfl]
  cases hfound : (InMemoryCache.get (request call).key call.now s).1 with
  | some blob => rfl
  | none =>
    simp only [Action.bind_apply, sourceFetch]
    unfold sourced
    rw [show call.fetch (upper call.base) (upper call.quote) = answerFor call from rfl]
    cases answerFor call with
    | error e => rfl
    | ok answer => rfl

/-- **The cache answers each lookup as the store does**, and has the same entries afterwards. -/
theorem step_view (call : Lookup) (s : InMemoryCache) :
    (step InMemoryCache.backend ttl s call).1 =
        reply call (ReadThrough.read (cachePolicy ttl) (view s) (request call)).1 ∧
      Alike (cachePolicy ttl) (request call).now (view (step InMemoryCache.backend ttl s call).2)
        (ReadThrough.read (cachePolicy ttl) (view s) (request call)).2 := by
  obtain ⟨hget, halike⟩ := @get_view ttl (request call).key call.now s
  rw [step_eq]
  cases hfound : (InMemoryCache.get (request call).key call.now s).1 with
  | some blob =>
    rw [hfound] at hget
    cases hlive : live (cachePolicy ttl) call.now (view s (request call).key) with
    | none =>
      rw [hlive] at hget
      cases hget
    | some e =>
      obtain ⟨since, v⟩ := e
      rw [hlive] at hget
      obtain rfl : decode blob = v := Option.some.inj hget
      rw [read_of_live hlive]
      exact ⟨rfl, halike⟩
  | none =>
    rw [hfound] at hget
    have hdead : live (cachePolicy ttl) (request call).now (view s (request call).key) = none :=
      Option.map_eq_none_iff.mp hget.symm
    have hsource : (request call).source =
        (answerFor call).toOption.map fun answer => decode (encode (rateFor call answer)) := rfl
    rw [read_of_dead hdead, hsource]
    cases answerFor call with
    | error e => exact ⟨rfl, halike⟩
    | ok answer =>
      refine ⟨rfl, fun k => ?_⟩
      show live (cachePolicy ttl) call.now (view (Function.update _ (request call).key _) k) =
        live (cachePolicy ttl) call.now (Function.update (view s) (request call).key _ k)
      rw [view_update, Function.update_apply, Function.update_apply]
      by_cases hk : k = (request call).key
      · rw [if_pos hk, if_pos hk]
        rfl
      · rw [if_neg hk, if_neg hk]
        exact halike k

/-! ## Runs -/

/-- A run of the store on the requests of the lookups. -/
def readings (ttl : Int) (calls : List Lookup) : List (Lookup × Answer (Except TickerError Rate) ℚ) :=
  Unwinding.outputs (reader (cachePolicy ttl) request) (fun _ => none) calls

theorem rates_eq {calls : List Lookup} (hclock : (calls.map Lookup.now).Pairwise (· ≤ ·)) :
    rates ttl calls = (readings ttl calls).map fun x => (x.1, reply x.1 x.2) :=
  outputs_eq_reader (cachePolicy_lawful ttl) view reply (fun call _ s => step_view call s) hclock fun _ _ _ => rfl

variable {calls : List Lookup} {pre post : List (Lookup × Answer (Except TickerError Rate) ℚ)} {call : Lookup}

theorem readings_inputs (h : readings ttl calls = pre ++ post) : pre.map Prod.fst ++ post.map Prod.fst = calls := by
  rw [← List.map_append, ← h]
  exact Unwinding.outputs_inputs _ _ _

/-- What is fetched is the text of the source's answer, read again. -/
theorem answer_of_fetched {r : Except TickerError Rate}
    (h : readings ttl calls = pre ++ (call, .fetched r) :: post) :
    ∃ answer, answerFor call = .ok answer ∧ decode (encode (rateFor call answer)) = r := by
  have hsource : (answerFor call).toOption.map (fun answer => decode (encode (rateFor call answer))) = some r :=
    fetched_run h
  cases hanswer : answerFor call with
  | error e =>
    rw [hanswer] at hsource
    cases hsource
  | ok answer =>
    rw [hanswer] at hsource
    exact ⟨answer, rfl, Option.some.inj hsource⟩

theorem answer_of_failed (h : readings ttl calls = pre ++ (call, .failed) :: post) :
    ∃ e, answerFor call = .error e := by
  have hsource : (answerFor call).toOption.map (fun answer => decode (encode (rateFor call answer))) = none :=
    failed_run h
  cases hanswer : answerFor call with
  | error e => exact ⟨e, rfl⟩
  | ok answer =>
    rw [hanswer] at hsource
    cases hsource

/-- The rate is what the source answered to the one lookup, for the pair of the other and not long before. -/
structure AnsweredBy (ttl : Int) (source call : Lookup) (rate : Rate) : Prop where
  answer : ∃ answer, answerFor source = .ok answer ∧ rateFor source answer = rate
  base : upper source.base = upper call.base
  quote : upper source.quote = upper call.quote
  nonneg : 0 ≤ call.now - source.now
  young : call.now - source.now < (ttl : ℚ)

theorem answeredBy_of_sourced (httl : 0 < ttl) {rate : Rate} {fetches : List Fetch}
    (h : sourced call = (.ok rate, fetches)) : AnsweredBy ttl call call rate := by
  have hyoung : call.now - call.now < (ttl : ℚ) := by
    rw [sub_self]
    exact Int.cast_pos.mpr httl
  cases hanswer : answerFor call with
  | error e =>
    rw [sourced, hanswer] at h
    cases h
  | ok answer =>
    rw [sourced, hanswer] at h
    have hrate : rateFor call answer = rate := Except.ok.inj (Prod.mk.inj h).1
    exact ⟨⟨answer, hanswer, hrate⟩, rfl, rfl, (sub_self call.now).ge, hyoung⟩

/-- A reading before the instant of expiry is less than the time to live after the one it was made for. -/
theorem young_of_lt_expiry (httl : Binary64.IsDouble ttl) {now since : ℚ} (hnow : Binary64.IsDouble now)
    (h : now < expiry ttl since) : now - since < (ttl : ℚ) := by
  unfold expiry Binary64.add at h
  rw [httl.nearest_eq_self] at h
  exact sub_lt_iff_lt_add'.mpr (hnow.lt_of_lt_nearest h)

/-- What is kept was fetched for the same pair by a call before, less than the time to live ago. -/
theorem kept_reading (hfloat : Binary64.IsDouble ttl) (hcalls : Lookups calls) {expiresAt : ℚ}
    {r : Except TickerError Rate} (h : readings ttl calls = pre ++ (call, .kept expiresAt r) :: post) :
    ∃ earlier ∈ pre.map Prod.fst, ∃ rate, r = .ok rate ∧ AnsweredBy ttl earlier call rate := by
  obtain ⟨earlier, ⟨before, after, rfl, hkey, -⟩, hfresh⟩ := kept_run h
  have hinputs := readings_inputs h
  have hearlier : earlier ∈ (before ++ (earlier, Answer.fetched r) :: after).map Prod.fst := by simp
  have hmem : earlier ∈ calls := by
    rw [← hinputs]
    exact List.mem_append_left _ hearlier
  have hcall : call ∈ calls := by
    rw [← hinputs]
    exact List.mem_append_right _ List.mem_cons_self
  have hle : earlier.now ≤ call.now := by
    have hclock := hcalls.clock
    rw [← hinputs, List.map_append, List.pairwise_append] at hclock
    exact hclock.2.2 _ (List.mem_map_of_mem hearlier) _ (by simp)
  have hfetched : readings ttl calls =
      before ++ (earlier, .fetched r) :: (after ++ (call, .kept expiresAt r) :: post) := by
    rw [h]
    simp
  obtain ⟨answer, hanswer, hread⟩ := answer_of_fetched hfetched
  have hrate : r = .ok (rateFor earlier answer) := by
    rw [← hread]
    exact decode_encode (hcalls.rereads earlier hmem)
  obtain ⟨hbase, hquote⟩ := cacheKey_inj (hcalls.codes earlier hmem).1 (hcalls.codes call hcall).1 hkey
  have hlt : call.now < expiry ttl earlier.now := of_decide_eq_true hfresh
  have hyoung := young_of_lt_expiry hfloat (hcalls.floats call hcall) hlt
  exact ⟨earlier, hearlier, rateFor earlier answer, hrate,
    ⟨⟨answer, hanswer, rfl⟩, hbase, hquote, sub_nonneg.mpr hle, hyoung⟩⟩

/-- A lookup that is answered by the source was not answered from the cache. -/
theorem fetched_of_isOk {a : Answer (Except TickerError Rate) ℚ}
    (h : readings ttl calls = pre ++ (call, a) :: post) {f : Fetch} (hf : f ∈ (reply call a).2)
    (hok : f.answer.isOk = true) :
    (∃ r, a = .fetched r) ∧ f = ⟨upper call.base, upper call.quote, call.now, answerFor call⟩ := by
  cases a with
  | kept expiresAt r => cases hf
  | fetched r => exact ⟨⟨r, rfl⟩, List.mem_singleton.mp hf⟩
  | failed =>
    obtain rfl := List.mem_singleton.mp hf
    obtain ⟨e, he⟩ := answer_of_failed h
    rw [he] at hok
    cases hok

theorem answered_apart (hclock : (calls.map Lookup.now).Pairwise (· ≤ ·)) :
    (answered (rates ttl calls)).Pairwise fun f g =>
      f.base = g.base → f.quote = g.quote → expiry ttl f.now ≤ g.now := by
  unfold answered
  rw [rates_eq hclock, List.pairwise_filter, List.pairwise_flatMap, List.pairwise_map]
  constructor
  · intro x hx
    obtain ⟨⟨call, a⟩, -, rfl⟩ := List.mem_map.mp hx
    cases a with
    | kept expiresAt r => exact List.Pairwise.nil
    | fetched r => exact List.pairwise_singleton ..
    | failed => exact List.pairwise_singleton ..
  · refine Unwinding.pairwise_of_splits fun pre y post h x hx f hf g hg hfok hgok hbase hquote => ?_
    obtain ⟨earlier, a⟩ := x
    obtain ⟨later, b⟩ := y
    obtain ⟨before, between, rfl⟩ := List.append_of_mem hx
    have hsplit : readings ttl calls = before ++ (earlier, a) :: (between ++ (later, b) :: post) := by
      rw [h]
      simp
    obtain ⟨⟨r, rfl⟩, rfl⟩ := fetched_of_isOk hsplit hf hfok
    obtain ⟨⟨r', rfl⟩, rfl⟩ := fetched_of_isOk h hg hgok
    have hkey : (request earlier).key = (request later).key := congrArg₂ cacheKey hbase hquote
    have hstale := fetches_apart (cachePolicy_lawful ttl) hclock h hx hkey
    exact not_lt.mp (of_decide_eq_false hstale)

/-- A rate that is returned was answered to this lookup or to one before. -/
theorem returned_of_reading (httl : 0 < ttl) (hfloat : Binary64.IsDouble ttl) (hcalls : Lookups calls)
    {a : Answer (Except TickerError Rate) ℚ} {rate : Rate} {fetches : List Fetch}
    (h : readings ttl calls = pre ++ (call, a) :: post) (hreply : reply call a = (.ok rate, fetches)) :
    ∃ source ∈ pre.map Prod.fst ++ [call], AnsweredBy ttl source call rate := by
  have hself : call ∈ pre.map Prod.fst ++ [call] := List.mem_append_right _ List.mem_cons_self
  cases a with
  | fetched r => exact ⟨call, hself, answeredBy_of_sourced httl hreply⟩
  | failed => exact ⟨call, hself, answeredBy_of_sourced httl hreply⟩
  | kept expiresAt r =>
    obtain ⟨earlier, hearlier, rate', hr, hanswered⟩ := kept_reading hfloat hcalls h
    obtain rfl : rate' = rate := Except.ok.inj (hr.symm.trans (Prod.mk.inj hreply).1)
    exact ⟨earlier, List.mem_append_left _ hearlier, hanswered⟩

/-- What is raised is what the source raises, and the store fails with it. -/
theorem raised_of_reading (hfloat : Binary64.IsDouble ttl) (hcalls : Lookups calls)
    {a : Answer (Except TickerError Rate) ℚ} {e : TickerError} {fetches : List Fetch}
    (h : readings ttl calls = pre ++ (call, a) :: post) (hreply : reply call a = (.error e, fetches)) :
    a = .failed ∧ ∃ raised, e = .rateNotFound raised ∧ answerFor call = .error raised := by
  cases a with
  | failed =>
    obtain ⟨raised, hraised⟩ := answer_of_failed h
    rw [reply, sourced, hraised] at hreply
    exact ⟨rfl, raised, (Except.error.inj (Prod.mk.inj hreply).1).symm, hraised⟩
  | kept expiresAt r =>
    obtain ⟨earlier, -, rate, hr, -⟩ := kept_reading hfloat hcalls h
    rw [hr] at hreply
    cases hreply
  | fetched r =>
    obtain ⟨answer, hanswer, -⟩ := answer_of_fetched h
    rw [reply, sourced, hanswer] at hreply
    cases hreply

theorem fresh_rates (httl : 0 < ttl) (hfloat : Binary64.IsDouble ttl) (hcalls : Lookups calls) :
    Fresh ttl (expiry ttl) (rates ttl calls) := by
  refine ⟨?_, ?_, answered_apart hcalls.clock⟩
  · intro pre call rate fetches post h
    rw [rates_eq hcalls.clock] at h
    obtain ⟨pre, ⟨call, a⟩, post, hsplit, rfl, hx, -⟩ := Unwinding.exists_split h
    obtain ⟨rfl, hreply⟩ := Prod.mk.inj hx
    obtain ⟨source, hsource, ⟨answer, hanswer, rfl⟩, hbase, hquote, hnonneg, hyoung⟩ :=
      returned_of_reading httl hfloat hcalls hsplit hreply
    rw [List.map_map]
    exact ⟨hbase, hquote, ⟨source, hsource, rfl, hanswer⟩, hnonneg, hyoung⟩
  · intro call e fetches h
    rw [rates_eq hcalls.clock] at h
    obtain ⟨⟨call', a⟩, hmem, hx⟩ := List.mem_map.mp h
    obtain ⟨pre, post, hsplit⟩ := List.append_of_mem hmem
    obtain ⟨rfl, hreply⟩ := Prod.mk.inj hx
    exact (raised_of_reading hfloat hcalls hsplit hreply).2

/-- The calls of the rate source are made at the readings of the lookups. -/
theorem now_of_answered {f : Fetch} (hclock : (calls.map Lookup.now).Pairwise (· ≤ ·))
    (hf : f ∈ answered (rates ttl calls)) : ∃ c ∈ calls, c.now = f.now := by
  unfold answered at hf
  rw [rates_eq hclock] at hf
  obtain ⟨x, hx, hfx⟩ := List.mem_flatMap.mp (List.mem_of_mem_filter hf)
  obtain ⟨⟨call, a⟩, hmem, rfl⟩ := List.mem_map.mp hx
  obtain ⟨pre, post, hsplit⟩ := List.append_of_mem hmem
  have hcall : call ∈ calls := by
    rw [← readings_inputs hsplit]
    exact List.mem_append_right _ List.mem_cons_self
  refine ⟨call, hcall, ?_⟩
  cases a with
  | kept expiresAt r => cases hfx
  | fetched r =>
    obtain rfl := List.mem_singleton.mp hfx
    rfl
  | failed =>
    obtain rfl := List.mem_singleton.mp hfx
    rfl

/-- Where no instant of expiry is rounded down, the source answers for a pair once in a time to live. -/
theorem Fresh.exactly {run : List (Lookup × Except TickerError Rate × List Fetch)}
    (h : Fresh ttl (expiry ttl) run) (hrounded : ∀ f ∈ answered run, f.now + ttl ≤ expiry ttl f.now) :
    Fresh ttl (· + (ttl : ℚ)) run := by
  refine ⟨h.returned, h.raised, ?_⟩
  refine h.apart.imp_of_mem fun {f g} hf _ hapart hbase hquote => ?_
  exact (hrounded f hf).trans (hapart hbase hquote)

/-- **The rates that are read through the cache are fresh**: the source is asked again for a pair when the float
sum of the time of its answer and the time to live is reached, which is not before the time to live is over if
no such sum is rounded down. A lookup that raises could as well not have been made. -/
theorem rates_read_through (ttl : Int) (httl : 0 < ttl) (hfloat : Binary64.IsDouble ttl) (calls : List Lookup)
    (hcalls : Lookups calls) :
    Fresh ttl (expiry ttl) (rates ttl calls) ∧
      ((∀ c ∈ calls, c.now + ttl ≤ expiry ttl c.now) → Fresh ttl (· + (ttl : ℚ)) (rates ttl calls)) ∧
      ∀ pre call e fetches post, rates ttl calls = pre ++ (call, .error e, fetches) :: post →
        rates ttl ((pre ++ post).map Prod.fst) = pre ++ post := by
  have hfresh := fresh_rates httl hfloat hcalls
  refine ⟨hfresh, fun hrounded => ?_, fun pre call e fetches post h => ?_⟩
  · refine hfresh.exactly fun f hf => ?_
    obtain ⟨c, hc, hnow⟩ := now_of_answered hcalls.clock hf
    rw [← hnow]
    exact hrounded c hc
  rw [rates_eq hcalls.clock] at h
  obtain ⟨pre, ⟨call, a⟩, post, hsplit, rfl, hx, rfl⟩ := Unwinding.exists_split h
  obtain ⟨rfl, hreply⟩ := Prod.mk.inj hx
  obtain ⟨rfl, -⟩ := raised_of_reading hfloat hcalls hsplit hreply
  have hinputs : ((pre ++ post).map fun x => (x.1, reply x.1 x.2)).map Prod.fst = (pre ++ post).map Prod.fst := by
    rw [List.map_map]
    rfl
  have hsub : (((pre ++ post).map Prod.fst).map Lookup.now).Pairwise (· ≤ ·) := by
    have hclock := hcalls.clock
    rw [← readings_inputs hsplit] at hclock
    refine hclock.sublist (List.Sublist.map _ ?_)
    rw [List.map_append, List.map_cons]
    exact List.Sublist.append_left (List.sublist_cons_self _ _) _
  rw [← List.map_append, hinputs, rates_eq hsub]
  exact congrArg _ (outputs_without_failed hsplit)

/-- A source that has a rate of one pair. -/
def euroAt (rate : Decimal) (base quote : String) : Except RateNotFound Decimal :=
  if base = "USD" ∧ quote = "EUR" then .ok rate else .error ⟨"no rate for " ++ base ++ "->" ++ quote⟩

/-- A fetch, a hit, a pair that is not found, and a fetch at the instant of expiry. -/
def euroLookups : List Lookup :=
  [⟨"usd", "eur", 1000, euroAt (.finite false 92 (-2))⟩, ⟨"USD", "EUR", 1059, euroAt (.finite false 95 (-2))⟩,
    ⟨"GBP", "EUR", 1059, euroAt (.finite false 95 (-2))⟩, ⟨"Usd", "Eur", 1060, euroAt (.finite false 95 (-2))⟩]

theorem lookups_euro : Lookups euroLookups := by
  constructor
  · simp [euroLookups]
    norm_num
  · simp only [euroLookups, List.forall_mem_cons]
    refine ⟨⟨?_, ?_⟩, ⟨?_, ?_⟩, ⟨?_, ?_⟩, ⟨?_, ?_⟩, nofun⟩ <;> exact ⟨by decide, List.all_eq_true.mp (by decide)⟩
  · simp only [euroLookups, List.forall_mem_cons]
    refine ⟨⟨1000, 0, ?_⟩, ⟨1059, 0, ?_⟩, ⟨1059, 0, ?_⟩, ⟨1060, 0, ?_⟩, nofun⟩ <;> norm_num
  · simp only [euroLookups, List.forall_mem_cons]
    exact ⟨by decide +kernel, by decide +kernel, by decide +kernel, by decide +kernel, nofun⟩

theorem rates_read_through_euro :
    Fresh 60 (· + ((60 : Int) : ℚ)) (rates 60 euroLookups) ∧
      ∀ pre call e fetches post, rates 60 euroLookups = pre ++ (call, .error e, fetches) :: post →
        rates 60 ((pre ++ post).map Prod.fst) = pre ++ post := by
  have hfloat : Binary64.IsDouble ((60 : Int) : ℚ) := Binary64.isDouble_intCast (by norm_num)
  obtain ⟨-, hexact, hfailed⟩ := rates_read_through 60 (by decide) hfloat euroLookups lookups_euro
  refine ⟨hexact ?_, hfailed⟩
  simp only [euroLookups, List.forall_mem_cons]
  exact ⟨by decide +kernel, by decide +kernel, by decide +kernel, by decide +kernel, nofun⟩

/-! ## Sums that are rounded -/

/-- Two lookups, at 4.002 and 64.002 as floats: less than 60 apart, and the second is at the rounded sum of the
first and 60. -/
def earlyLookups : List Lookup :=
  [⟨"usd", "eur", 4505851427184181 / 2 ^ 50, euroAt (.finite false 92 (-2))⟩,
    ⟨"usd", "eur", 4503740364858851 / 2 ^ 46, euroAt (.finite false 95 (-2))⟩]

/-- Two lookups as far apart as a time to live that is no float. -/
def lateLookups : List Lookup :=
  [⟨"usd", "eur", 3, euroAt (.finite false 92 (-2))⟩,
    ⟨"usd", "eur", 2 ^ 53 + 6, euroAt (.finite false 95 (-2))⟩]

/-- The source is asked again before the time to live is over; and a rate is returned when it is over, if the
time to live is rounded up. -/
theorem early_and_late :
    (∀ c ∈ earlyLookups, Binary64.IsDouble c.now) ∧ ¬ Fresh 60 (· + ((60 : Int) : ℚ)) (rates 60 earlyLookups) ∧
      (∀ c ∈ lateLookups, Binary64.IsDouble c.now) ∧
      ∀ expires, ¬ Fresh (2 ^ 53 + 3) expires (rates (2 ^ 53 + 3) lateLookups) := by
  refine ⟨?_, fun h => ?_, ?_, fun expires h => ?_⟩
  · simp only [earlyLookups, List.forall_mem_cons]
    refine ⟨⟨4505851427184181, -50, ?_⟩, ⟨4503740364858851, -46, ?_⟩, nofun⟩ <;> norm_num
  · have hanswered : (answered (rates 60 earlyLookups)).map (fun f => (f.base, f.quote, f.now)) =
        [("USD", "EUR", 4505851427184181 / 2 ^ 50), ("USD", "EUR", 4503740364858851 / 2 ^ 46)] := by
      decide +kernel
    have hapart := h.apart
    obtain ⟨f, fs, hfs, hf, hrest⟩ := List.map_eq_cons_iff.mp hanswered
    obtain ⟨g, gs, rfl, hg, -⟩ := List.map_eq_cons_iff.mp hrest
    rw [hfs] at hapart
    simp only [Prod.mk.injEq] at hf hg
    have hle := List.rel_of_pairwise_cons hapart List.mem_cons_self (hf.1.trans hg.1.symm)
      (hf.2.1.trans hg.2.1.symm)
    rw [hf.2.2, hg.2.2] at hle
    norm_num at hle
  · simp only [lateLookups, List.forall_mem_cons]
    refine ⟨⟨3, 0, ?_⟩, ⟨2 ^ 52 + 3, 1, ?_⟩, nofun⟩ <;> norm_num
  · have hreturned : (rates (2 ^ 53 + 3) lateLookups).map (fun x => (x.1.now, x.2.1.toOption.map Rate.asOf)) =
        [(3, some 3), (2 ^ 53 + 6, some 3)] := by
      decide +kernel
    obtain ⟨x, xs, hxs, -, hrest⟩ := List.map_eq_cons_iff.mp hreturned
    obtain ⟨⟨call, returned, fetches⟩, ys, rfl, hy, -⟩ := List.map_eq_cons_iff.mp hrest
    obtain ⟨hnow, hasOf⟩ := Prod.mk.inj hy
    cases returned with
    | error e => cases hasOf
    | ok rate =>
      have hasOf : rate.asOf = 3 := Option.some.inj hasOf
      have hyoung := (h.returned [x] call rate fetches ys hxs).2.2.2.2
      have hnow : call.now = 2 ^ 53 + 6 := hnow
      rw [hnow, hasOf] at hyoung
      norm_num at hyoung

end Ticker

end CaviErp

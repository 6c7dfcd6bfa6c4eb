import CaviErp.Shared.Edits
import CaviErp.Shared.Proofs.EventsProofs

/-!
# Edits are located

Where an event was replaced by one with another canonical text, the hash recorded there is not the hash
expected; everywhere else it is, because both are taken from the hash recorded before. One entry at a time is
added to the log, and its report to the end of the reports.
-/

namespace CaviErp

open Py HashChain

variable {sha256 : String → String}

/-! ## The events of the store -/

/-- The last element is kept unless it repeats an earlier one. -/
theorem eraseDupsBy_loop_snoc {α : Type} (r : α → α → Bool) (l seen : List α) (a : α) :
    List.eraseDupsBy.loop r (l ++ [a]) seen =
      if (List.eraseDupsBy.loop r l seen).any (r a) then List.eraseDupsBy.loop r l seen
      else List.eraseDupsBy.loop r l seen ++ [a] := by
  induction l generalizing seen with
  | nil =>
    simp only [List.nil_append, List.eraseDupsBy.loop, List.any_reverse]
    by_cases h : seen.any (r a) = true <;> simp [h]
  | cons b l ih =>
    simp only [List.cons_append, List.eraseDupsBy.loop]
    by_cases h : seen.any (r b) = true
    · simp only [h]
      exact ih seen
    · simp only [h]
      exact ih (b :: seen)

namespace EventStore

/-- The store holds the events that come first with their ids, in the order in which they came. -/
theorem recordAll_events (events : List Event) :
    (recordAll sha256 events).events = events.eraseDupsBy sameId := by
  induction events using List.reverseRecOn with
  | nil => rfl
  | append_singleton events event ih =>
    have hsnoc : recordAll sha256 (events ++ [event]) =
        (recordAll sha256 events).recordEvent sha256 event := List.foldl_append ..
    have hseen : (recordAll sha256 events).hasEvent event =
        (events.eraseDupsBy sameId).any (sameId event) := by
      unfold hasEvent
      rw [ih]
      rfl
    rw [hsnoc, recordEvent, hseen]
    unfold List.eraseDupsBy
    rw [eraseDupsBy_loop_snoc]
    by_cases h : (List.eraseDupsBy.loop sameId events []).any (sameId event) = true
    · rw [if_pos h, if_pos (by exact h)]
      exact ih
    · rw [if_neg h, if_neg (by exact h)]
      show (recordAll sha256 events).events ++ [event] = _
      rw [ih]
      rfl

/-- No id is held twice. -/
theorem recordAll_nodup (events : List Event) :
    ((recordAll sha256 events).events.map fun e => e.id.dictKey).Nodup := by
  induction events using List.reverseRecOn with
  | nil => exact List.nodup_nil
  | append_singleton events event ih =>
    have hsnoc : recordAll sha256 (events ++ [event]) =
        (recordAll sha256 events).recordEvent sha256 event := List.foldl_append ..
    rw [hsnoc, recordEvent]
    by_cases h : (recordAll sha256 events).hasEvent event = true
    · rw [if_pos h]
      exact ih
    · rw [if_neg h]
      show (((recordAll sha256 events).events ++ [event]).map fun e => e.id.dictKey).Nodup
      rw [List.map_append, List.nodup_append]
      refine ⟨ih, List.nodup_singleton _, ?_⟩
      intro a ha b hb
      obtain ⟨e, he, rfl⟩ := List.mem_map.mp ha
      obtain rfl := List.mem_singleton.mp hb
      intro heq
      apply h
      unfold hasEvent
      exact List.any_eq_true.mpr ⟨e, he, by simpa using heq⟩

end EventStore

/-! ## Reports -/

theorem verifyFrom_snoc (position : Nat) (prev : String) (log : List (Obj × String))
    (entry : Obj × String) :
    verifyFrom sha256 position prev (log ++ [entry]) =
      verifyFrom sha256 position prev log ++
        (if entry.2 ≠ chainHash sha256 (tip prev log) entry.1 then
          [chainBreak (position + log.length) entry.1 entry.2
            (chainHash sha256 (tip prev log) entry.1)]
        else []) := by
  induction log generalizing position prev with
  | nil => simp [verifyFrom]
  | cons x log ih =>
    obtain ⟨event, recorded⟩ := x
    have hposition : position + ((event, recorded) :: log).length = position + 1 + log.length := by
      rw [List.length_cons]
      omega
    rw [List.cons_append, verifyFrom, verifyFrom, ih, tip_cons, hposition, List.append_assoc]

section Edited

variable {log : List (Obj × String)} {S : Finset Nat} {replacement : Nat → Obj}

theorem edited_hashes (log : List (Obj × String)) (S : Finset Nat) (replacement : Nat → Obj) :
    (edited log S replacement).map Prod.snd = log.map Prod.snd := by
  unfold edited
  refine List.ext_getElem? fun i => ?_
  rw [List.getElem?_map, List.getElem?_map, List.getElem?_mapIdx]
  cases log[i]? with
  | none => rfl
  | some entry =>
    by_cases h : i ∈ S <;> simp [h]

theorem edited_snoc (log : List (Obj × String)) (entry : Obj × String) (S : Finset Nat)
    (replacement : Nat → Obj) :
    edited (log ++ [entry]) S replacement = edited log S replacement ++
      [if log.length ∈ S then (replacement log.length, entry.2) else entry] :=
  List.mapIdx_concat

theorem editBreak_snoc {entry : Obj × String} {i : Nat} (hi : i < log.length) :
    editBreak (log ++ [entry]) replacement sha256 i = editBreak log replacement sha256 i := by
  unfold editBreak recordedAt recordedBefore
  rw [List.getElem?_append_left hi, List.take_append_of_le_length (Nat.le_of_lt hi)]

theorem editBreak_last (log : List (Obj × String)) (entry : Obj × String) (replacement : Nat → Obj) :
    editBreak (log ++ [entry]) replacement sha256 log.length =
      chainBreak log.length (replacement log.length) entry.2
        (chainHash sha256 (tip genesisHash log) (replacement log.length)) := by
  unfold editBreak recordedAt recordedBefore
  rw [List.getElem?_concat_length, List.take_left]
  rfl

theorem editedPositions_snoc (log : List (Obj × String)) (entry : Obj × String) (S : Finset Nat) :
    editedPositions (log ++ [entry]) S =
      editedPositions log S ++ if log.length ∈ S then [log.length] else [] := by
  unfold editedPositions
  rw [List.length_append, List.length_singleton, List.range_succ, List.filter_append]
  by_cases h : log.length ∈ S <;> simp [h]

/-- On a chain, exactly the positions are reported at which the replacement links otherwise than what was
recorded. -/
theorem verifyChain_edited (hlog : Chained (chainHash sha256) genesisHash log)
    (hdiffers : ∀ i ∈ S, ∀ entry, log[i]? = some entry →
      entry.2 ≠ chainHash sha256 (recordedBefore log i) (replacement i)) :
    verifyChain sha256 (edited log S replacement) =
      (editedPositions log S).map (editBreak log replacement sha256) := by
  induction log using List.reverseRecOn with
  | nil => rfl
  | append_singleton log entry ih =>
    obtain ⟨hlog', hlast⟩ := chained_snoc.mp hlog
    have hold : verifyChain sha256 (edited log S replacement) =
        (editedPositions log S).map (editBreak log replacement sha256) := by
      refine ih hlog' ?_
      intro i hi e he
      have hlt : i < log.length := (List.getElem?_eq_some_iff.mp he).1
      have hhere := hdiffers i hi e (by rw [List.getElem?_append_left hlt]; exact he)
      unfold recordedBefore at hhere ⊢
      rw [List.take_append_of_le_length (Nat.le_of_lt hlt)] at hhere
      exact hhere
    have hsame : (editedPositions log S).map (editBreak (log ++ [entry]) replacement sha256) =
        (editedPositions log S).map (editBreak log replacement sha256) := by
      refine List.map_congr_left fun i hi => ?_
      exact editBreak_snoc (List.mem_range.mp (List.mem_of_mem_filter hi))
    have hlength : (edited log S replacement).length = log.length := List.length_mapIdx
    have htip : tip genesisHash (edited log S replacement) = tip genesisHash log :=
      tip_congr (edited_hashes log S replacement) genesisHash
    unfold verifyChain at hold ⊢
    rw [edited_snoc, verifyFrom_snoc, editedPositions_snoc, List.map_append, hsame, hold, htip, hlength,
      Nat.zero_add]
    congr 1
    by_cases hS : log.length ∈ S
    · have hne := hdiffers log.length hS entry List.getElem?_concat_length
      unfold recordedBefore at hne
      rw [List.take_left] at hne
      simp only [hS, if_true, ne_eq, hne, not_false_eq_true, List.map_cons, List.map_nil,
        editBreak_last]
    · simp only [hS, if_false, List.map_nil]
      rw [if_neg]
      intro hne
      exact hne hlast

theorem edited_getElem? {i : Nat} {entry : Obj × String} (hi : i ∈ S) (hentry : log[i]? = some entry) :
    (edited log S replacement)[i]? = some (replacement i, entry.2) := by
  unfold edited
  rw [List.getElem?_mapIdx, hentry]
  simp [hi]

theorem recordedBefore_edited (log : List (Obj × String)) (S : Finset Nat) (replacement : Nat → Obj)
    (i : Nat) : recordedBefore (edited log S replacement) i = recordedBefore log i := by
  unfold recordedBefore
  refine tip_congr ?_ genesisHash
  rw [List.map_take, List.map_take, edited_hashes]

/-- A replacement that links as the event it replaces has its canonical text. -/
theorem edit_canonical_eq (hinj : Set.InjOn sha256 (hashedStrings log ∪
      hashedStrings (edited log S replacement))) (hlog : Chained (chainHash sha256) genesisHash log)
    {i : Nat} {entry : Obj × String} (hi : i ∈ S) (hentry : log[i]? = some entry)
    (hsame : entry.2 = chainHash sha256 (recordedBefore log i) (replacement i)) :
    canonicalEvent (replacement i) = canonicalEvent entry.1 := by
  have hrecorded : entry.2 = chainHash sha256 (recordedBefore log i) entry.1 := hlog.getElem? hentry
  have hold : recordedBefore log i ++ "\n" ++ canonicalEvent entry.1 ∈ hashedStrings log :=
    ⟨_, mem_links_of_getElem? hentry genesisHash, rfl⟩
  have hnew : recordedBefore log i ++ "\n" ++ canonicalEvent (replacement i) ∈
      hashedStrings (edited log S replacement) := by
    rw [← recordedBefore_edited log S replacement i]
    exact ⟨_, mem_links_of_getElem? (edited_getElem? hi hentry) genesisHash, rfl⟩
  have hdigest := (append_eq_append_of_length rfl (hsame.symm.trans hrecorded)).2
  have hmaterial := hinj (.inr hnew) (.inl hold) hdigest
  exact (append_eq_append_of_length rfl hmaterial).2

end Edited

/-- **Edits are located exactly.** With a hash that is injective on the strings hashed, the log of any calls
of `record_event` verifies; once the events at the positions in `S` are replaced by events with other
canonical texts, `verify_chain` reports one problem for each of these positions, in order. The store holds
each id once, with the event that came first. -/
theorem edits_located (events : List Event) (S : Finset Nat) (replacement : Nat → Obj)
    (hinj : Set.InjOn sha256 (hashedStrings (EventStore.recordAll sha256 events).entries ∪
      hashedStrings (edited (EventStore.recordAll sha256 events).entries S replacement)))
    (hother : ∀ i ∈ S, ∀ entry, (EventStore.recordAll sha256 events).entries[i]? = some entry →
      canonicalEvent (replacement i) ≠ canonicalEvent entry.1) :
    verifyChain sha256 (edited (EventStore.recordAll sha256 events).entries S replacement) =
        (editedPositions (EventStore.recordAll sha256 events).entries S).map
          (editBreak (EventStore.recordAll sha256 events).entries replacement sha256) ∧
      verifyChain sha256 (EventStore.recordAll sha256 events).entries = [] ∧
      (EventStore.recordAll sha256 events).events = events.eraseDupsBy sameId ∧
      ((EventStore.recordAll sha256 events).events.map fun e => e.id.dictKey).Nodup := by
  have hok : verifyChain sha256 (EventStore.recordAll sha256 events).entries = [] :=
    EventStore.verifyChain_recordAll events
  refine ⟨?_, hok, EventStore.recordAll_events events, EventStore.recordAll_nodup events⟩
  generalize (EventStore.recordAll sha256 events).entries = log at hinj hother hok ⊢
  have hchained := (verifyChain_eq_nil_iff log).mp hok
  refine verifyChain_edited hchained ?_
  intro i hi entry hentry hsame
  exact hother i hi entry hentry (edit_canonical_eq hinj hchained hi hentry hsame)

/-! ## A redelivered completion, and a forged first event -/

/-- The first completion is delivered again. -/
def redelivered : List Event := [firstCompletion, secondCompletion, firstCompletion]

/-- The first event is made to look like the second. -/
def forged : Nat → Obj := fun _ => chainEnvelope secondCompletion

theorem redelivered_entries :
    (EventStore.recordAll completionDigest redelivered).entries = completionLog := rfl

/-- The hypotheses of `edits_located` hold where the first event is forged. -/
theorem edits_located_forged :
    verifyChain completionDigest
        (edited (EventStore.recordAll completionDigest redelivered).entries {0} forged) =
      [editBreak completionLog forged completionDigest 0] := by
  refine (edits_located redelivered {0} forged ?_ ?_).1.trans ?_
  · rw [redelivered_entries]
    have hmem : ∀ m ∈ hashedStrings completionLog ∪ hashedStrings (edited completionLog {0} forged),
        m ∈ completionMaterials.map Prod.fst := by
      rw [completionLog_eq]
      rintro m (⟨x, hx, rfl⟩ | ⟨x, hx, rfl⟩) <;>
      · simp only [edited, forged, List.mapIdx_cons, List.mapIdx_nil, Finset.mem_singleton, links,
          List.mem_cons, List.not_mem_nil, or_false] at hx
        rcases hx with rfl | rfl <;>
          simp [completionMaterials, canonicalEvent_firstCompletion, canonicalEvent_secondCompletion]
    exact completionDigest_injOn hmem
  · intro i hi entry hentry
    obtain rfl := Finset.mem_singleton.mp hi
    rw [redelivered_entries, completionLog_eq] at hentry
    obtain rfl := Option.some.inj hentry
    show canonicalEvent (chainEnvelope secondCompletion) ≠ canonicalEvent (chainEnvelope firstCompletion)
    rw [canonicalEvent_firstCompletion, canonicalEvent_secondCompletion]
    decide +kernel
  · rw [redelivered_entries, completionLog_eq]
    rfl

end CaviErp

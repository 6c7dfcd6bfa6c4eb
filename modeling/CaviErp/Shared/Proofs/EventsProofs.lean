import CaviErp.Shared.Events
import CaviErp.Shared.Proofs.AuditProofs

/-!
# What verification detects

The log that `record_event` builds is intact. Rows that are taken from an intact log, in any order and
number, verify exactly where they are an initial segment of it: a gap and a change of order are
detected, the removal of the last rows is not.
-/

namespace CaviErp

open Py HashChain

variable {sha256 : String → String}

namespace EventStore

/-- Every event recorded has its hash. -/
def Paired (s : EventStore) : Prop := s.events.length = s.chainHashes.length

theorem getLast?_entries {s : EventStore} (h : s.Paired) :
    (s.entries.getLast?.map Prod.snd) = s.chainHashes.getLast? := by
  have hmap : s.entries.map Prod.snd = s.chainHashes := by
    refine List.map_snd_zip ?_
    rw [List.length_map]
    exact Nat.le_of_eq h.symm
  rw [← hmap, List.getLast?_map]

/-- One call keeps the pairing and the chain. -/
theorem recordEvent_chained {s : EventStore} (event : Event) (hp : s.Paired)
    (hc : Chained (chainHash sha256) genesisHash s.entries) :
    (s.recordEvent sha256 event).Paired ∧
      Chained (chainHash sha256) genesisHash (s.recordEvent sha256 event).entries := by
  unfold recordEvent
  split
  · exact ⟨hp, hc⟩
  · refine ⟨?_, ?_⟩
    · simpa [Paired] using hp
    · have hentries : entries { s with
          chainHashes := s.chainHashes ++
            [chainHash sha256 (s.chainHashes.getLast?.getD genesisHash) (chainEnvelope event)]
          events := s.events ++ [event] } =
          s.entries ++ [(chainEnvelope event,
            chainHash sha256 (s.chainHashes.getLast?.getD genesisHash) (chainEnvelope event))] := by
        unfold entries
        rw [List.map_append, List.zip_append (by rw [List.length_map]; exact hp)]
        rfl
      show Chained (chainHash sha256) genesisHash (entries _)
      rw [hentries, chained_snoc]
      refine ⟨hc, ?_⟩
      rw [HashChain.tip, getLast?_entries hp]

/-- The log of any calls of `record_event` is intact. -/
theorem verifyChain_recordAll (events : List Event) :
    verifyChain sha256 (recordAll sha256 events).entries = [] := by
  rw [verifyChain_eq_nil_iff]
  have h : (recordAll sha256 events).Paired ∧
      Chained (chainHash sha256) genesisHash (recordAll sha256 events).entries := by
    induction events using List.reverseRecOn with
    | nil => exact ⟨rfl, trivial⟩
    | append_singleton events event ih =>
      unfold recordAll at ih ⊢
      rw [List.foldl_append]
      exact recordEvent_chained event ih.1 ih.2
  exact h.2

end EventStore

/-! ## Rows taken from an intact log -/

theorem verifyChain_of_prefix {log rows : List (Obj × String)} (hpre : rows <+: log)
    (hlog : verifyChain sha256 log = []) : verifyChain sha256 rows = [] := by
  obtain ⟨rest, rfl⟩ := hpre
  rw [verifyChain_eq_nil_iff] at hlog ⊢
  exact (chained_append.mp hlog).1

/-- Rows of an intact log verify if and only if they are an initial segment of it. -/
theorem verifyChain_of_subset (hlen : ∀ m, (sha256 m).length = 64)
    (hgenesis : ∀ m, "sha256:" ++ sha256 m ≠ genesisHash) {log rows : List (Obj × String)}
    (hinj : Set.InjOn sha256 (hashedStrings log ∪ hashedStrings rows))
    (hlog : verifyChain sha256 log = []) (hsub : ∀ x ∈ rows, x ∈ log) :
    verifyChain sha256 rows = [] ↔ rows <+: log := by
  refine ⟨?_, fun hpre => verifyChain_of_prefix hpre hlog⟩
  · intro hrows
    rw [verifyChain_eq_nil_iff] at hlog hrows
    refine prefix_of_subset (fun p e => hgenesis _) hlog hrows hsub ?_
    intro x hx y hy hxy
    have hx71 := hrows.links_prev (P := fun h => h.length = 71) genesisHash_length
      (chainHash_length hlen) x hx
    have hy71 := hlog.links_prev (P := fun h => h.length = 71) genesisHash_length
      (chainHash_length hlen) y hy
    exact (chainHash_split _ hinj hx71 hy71 (Or.inr ⟨x, hx, rfl⟩) (Or.inl ⟨y, hy, rfl⟩) hxy).1

/-- **Deletion and reordering.** With a hash that yields 64 characters, is injective on the strings
hashed and never yields the genesis hash: deleting rows from an intact log is detected if and only if
the rows that are left are not an initial segment of it, and every other order of the rows is
detected. -/
theorem tampering_detected_iff_not_truncation (hlen : ∀ m, (sha256 m).length = 64)
    (hgenesis : ∀ m, "sha256:" ++ sha256 m ≠ genesisHash) (log rows : List (Obj × String))
    (hinj : Set.InjOn sha256 (hashedStrings log ∪ hashedStrings rows))
    (hlog : verifyChain sha256 log = []) (hne : rows ≠ log) :
    (rows.Sublist log → (verifyChain sha256 rows ≠ [] ↔ ¬ rows <+: log)) ∧
      (rows.Perm log → verifyChain sha256 rows ≠ []) := by
  refine ⟨?_, ?_⟩
  · intro hsub
    exact not_congr (verifyChain_of_subset hlen hgenesis hinj hlog fun x hx => hsub.subset hx)
  · intro hperm hok
    have hpre := (verifyChain_of_subset hlen hgenesis hinj hlog fun x hx => hperm.subset hx).mp hok
    exact hne (hpre.eq_of_length hperm.length_eq)

/-! ## Two recorded completions -/

def completionEvent (id workOrderId : String) : Event where
  subject := "forge.completed"
  schemaVersion := .int 1
  source := "forge"
  payload := .obj [("work_order_id", .str workOrderId)]
  id := .str id
  tenantId := "tenant-acme"

def firstCompletion : Event := completionEvent "00000000-0000-0000-0000-000000000000" "wo-0"

def secondCompletion : Event := completionEvent "00000000-0000-0000-0000-000000000001" "wo-1"

/-- Their canonical texts. -/
def firstText : String :=
  "\x7b\"correlation_id\":null,\"id\":\"00000000-0000-0000-0000-000000000000\",\"payload\":\x7b\"work_order_id\":\"wo-0\"\x7d" ++
    ",\"schema_version\":1,\"source\":\"forge\",\"subject\":\"forge.completed\",\"tenant_id\":\"tenant-acme\"\x7d"

@[inherit_doc firstText]
def secondText : String :=
  "\x7b\"correlation_id\":null,\"id\":\"00000000-0000-0000-0000-000000000001\",\"payload\":\x7b\"work_order_id\":\"wo-1\"\x7d" ++
    ",\"schema_version\":1,\"source\":\"forge\",\"subject\":\"forge.completed\",\"tenant_id\":\"tenant-acme\"\x7d"

theorem canonicalEvent_firstCompletion :
    canonicalEvent (chainEnvelope firstCompletion) = firstText := by decide +kernel

theorem canonicalEvent_secondCompletion :
    canonicalEvent (chainEnvelope secondCompletion) = secondText := by decide +kernel

/-- What is hashed for the first, then for the second, and for the second without the first. -/
def completionMaterials : List (String × String) :=
  [(genesisHash ++ "\n" ++ firstText,
      "e81abc6e71291fd84c9febd9ce6d7aac7cd7846f5f418d5ee8df9f8201e69e9b"),
    ("sha256:e81abc6e71291fd84c9febd9ce6d7aac7cd7846f5f418d5ee8df9f8201e69e9b" ++ "\n" ++ secondText,
      "71fb65a285ad13812ae3537a903f89769bb596aa77350f9df0d03db620c2760f"),
    (genesisHash ++ "\n" ++ secondText,
      "c1ab6c8f5b36b5a8ccc408a5a7e4b360f59f4fb877301d2572ce79711c6a57f3")]

/-- SHA-256 on these strings, and some other digest elsewhere. -/
def completionDigest (m : String) : String :=
  (completionMaterials.lookup m).getD (String.ofList (List.replicate 64 'f'))

theorem completionDigest_mem (m : String) : completionDigest m ∈
    String.ofList (List.replicate 64 'f') :: completionMaterials.map Prod.snd := by
  unfold completionDigest
  cases h : completionMaterials.lookup m with
  | none => exact List.mem_cons_self
  | some d =>
    obtain ⟨l₁, l₂, hsplit, -⟩ := List.lookup_eq_some_iff.mp h
    refine List.mem_cons_of_mem _ (List.mem_map.mpr ⟨(m, d), ?_, rfl⟩)
    rw [hsplit]
    simp

theorem completionDigest_length (m : String) : (completionDigest m).length = 64 := by
  have hall : ∀ d ∈ String.ofList (List.replicate 64 'f') :: completionMaterials.map Prod.snd,
      d.length = 64 := by decide +kernel
  exact hall _ (completionDigest_mem m)

theorem completionDigest_injOn {T : Set String} (h : ∀ m ∈ T, m ∈ completionMaterials.map Prod.fst) :
    Set.InjOn completionDigest T := by
  have hdistinct : ((completionMaterials.map Prod.fst).map completionDigest).Nodup := by
    decide +kernel
  intro m hm m' hm' heq
  exact List.inj_on_of_nodup_map hdistinct (h m hm) (h m' hm') heq

def completionLog : List (Obj × String) :=
  (EventStore.recordAll completionDigest [firstCompletion, secondCompletion]).entries

theorem completionLog_eq : completionLog =
    [(chainEnvelope firstCompletion,
        "sha256:e81abc6e71291fd84c9febd9ce6d7aac7cd7846f5f418d5ee8df9f8201e69e9b"),
      (chainEnvelope secondCompletion,
        "sha256:71fb65a285ad13812ae3537a903f89769bb596aa77350f9df0d03db620c2760f")] := by
  have hfirst : chainHash completionDigest genesisHash (chainEnvelope firstCompletion) =
      "sha256:e81abc6e71291fd84c9febd9ce6d7aac7cd7846f5f418d5ee8df9f8201e69e9b" := by
    rw [chainHash, canonicalEvent_firstCompletion]
    decide +kernel
  have hsecond : chainHash completionDigest
        "sha256:e81abc6e71291fd84c9febd9ce6d7aac7cd7846f5f418d5ee8df9f8201e69e9b"
        (chainEnvelope secondCompletion) =
      "sha256:71fb65a285ad13812ae3537a903f89769bb596aa77350f9df0d03db620c2760f" := by
    rw [chainHash, canonicalEvent_secondCompletion]
    decide +kernel
  have hlog : completionLog =
      [(chainEnvelope firstCompletion,
          chainHash completionDigest genesisHash (chainEnvelope firstCompletion)),
        (chainEnvelope secondCompletion, chainHash completionDigest
          (chainHash completionDigest genesisHash (chainEnvelope firstCompletion))
          (chainEnvelope secondCompletion))] := rfl
  rw [hlog, hfirst, hsecond]

/-- The last row is deleted, and nothing is reported. -/
theorem truncation_not_detected :
    (completionLog.take 1).Sublist completionLog ∧ completionLog.take 1 ≠ completionLog ∧
      verifyChain completionDigest (completionLog.take 1) = [] := by
  refine ⟨List.take_sublist 1 _, ?_, ?_⟩
  · rw [completionLog_eq]
    simp
  · exact verifyChain_of_prefix (List.take_prefix 1 _) (EventStore.verifyChain_recordAll _)

/-- The hypotheses of `tampering_detected_iff_not_truncation` hold where the first row is deleted. -/
theorem tampering_detected_first_deleted :
    verifyChain completionDigest completionLog = [] ∧
      verifyChain completionDigest (completionLog.drop 1) ≠ [] := by
  have hok : verifyChain completionDigest completionLog = [] := EventStore.verifyChain_recordAll _
  refine ⟨hok, ((tampering_detected_iff_not_truncation completionDigest_length ?_ completionLog
    (completionLog.drop 1) ?_ hok ?_).1 (List.drop_sublist 1 _)).mpr ?_⟩
  · intro m
    have hall : ∀ d ∈ String.ofList (List.replicate 64 'f') :: completionMaterials.map Prod.snd,
        "sha256:" ++ d ≠ genesisHash := by decide +kernel
    exact hall _ (completionDigest_mem m)
  · -- only these strings are hashed, and their digests differ
    have hmem : ∀ m ∈ hashedStrings completionLog ∪ hashedStrings (completionLog.drop 1),
        m ∈ completionMaterials.map Prod.fst := by
      rw [completionLog_eq]
      rintro m (⟨x, hx, rfl⟩ | ⟨x, hx, rfl⟩) <;>
      · simp only [List.drop_succ_cons, List.drop_zero, links, List.mem_cons, List.not_mem_nil,
          or_false] at hx
        rcases hx with rfl | rfl <;>
          simp [completionMaterials, canonicalEvent_firstCompletion, canonicalEvent_secondCompletion]
    exact completionDigest_injOn hmem
  · rw [completionLog_eq]
    simp
  · rw [completionLog_eq]
    intro hpre
    have hhead := List.cons_prefix_cons.mp hpre
    exact absurd (congrArg Prod.snd hhead.1) (by decide +kernel)

end CaviErp

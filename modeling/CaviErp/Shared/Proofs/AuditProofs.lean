import Mathlib.Data.Set.Function
import CaviErp.Lib.HashChain
import CaviErp.Shared.Audit

/-!
# What an intact audit chain commits to

`verify_chain` accepts exactly the hash chains from `GENESIS_HASH`. The material hashed at a position
is the predecessor's hash, a newline and the canonical event; since every hash has the same length, the
material splits in one way only, and the tip of an accepted log determines the whole log.
-/

namespace CaviErp

open Py HashChain

variable {sha256 : String → String}

/-- The strings `verify_chain` hashes on a log: at each position the hash recorded before it, a newline
and the canonical event. -/
def hashedStrings (entries : List (Obj × String)) : Set String :=
  { m | ∃ x ∈ links genesisHash entries, m = x.1 ++ "\n" ++ canonicalEvent x.2 }

theorem verifyFrom_eq_nil_iff (position : Nat) (prev : String) (entries : List (Obj × String)) :
    verifyFrom sha256 position prev entries = [] ↔ Chained (chainHash sha256) prev entries := by
  induction entries generalizing position prev with
  | nil => simp [verifyFrom, Chained]
  | cons x entries ih =>
    obtain ⟨event, recorded⟩ := x
    simp only [verifyFrom, Chained, List.append_eq_nil_iff, ih]
    by_cases h : recorded = chainHash sha256 prev event <;> simp [h]

/-- `verify_chain` reports nothing exactly on a chain from the genesis hash. -/
theorem verifyChain_eq_nil_iff (entries : List (Obj × String)) :
    verifyChain sha256 entries = [] ↔ Chained (chainHash sha256) genesisHash entries :=
  verifyFrom_eq_nil_iff ..

theorem genesisHash_length : genesisHash.length = 71 := rfl

theorem chainHash_length (hlen : ∀ m, (sha256 m).length = 64) (prev : String) (event : Obj) :
    (chainHash sha256 prev event).length = 71 := by
  rw [chainHash, String.length_append, hlen]
  rfl

theorem append_eq_append_of_length {a b c d : String} (hlen : a.length = b.length)
    (h : a ++ c = b ++ d) : a = b ∧ c = d := by
  have hl : a.toList ++ c.toList = b.toList ++ d.toList := by
    simpa using congrArg String.toList h
  obtain ⟨h1, h2⟩ := List.append_inj hl hlen
  exact ⟨String.toList_inj.mp h1, String.toList_inj.mp h2⟩

/-- The material of a link splits in one way: equal hashes of materials that are hashed come from the
same predecessor and the same canonical event. -/
theorem chainHash_split (S : Set String) (hinj : Set.InjOn sha256 S) {p q : String} {e f : Obj}
    (hp : p.length = 71) (hq : q.length = 71) (he : p ++ "\n" ++ canonicalEvent e ∈ S)
    (hf : q ++ "\n" ++ canonicalEvent f ∈ S) (h : chainHash sha256 p e = chainHash sha256 q f) :
    p = q ∧ canonicalEvent e = canonicalEvent f := by
  have hsha := (append_eq_append_of_length rfl h).2
  have hmat := hinj he hf hsha
  rw [String.append_assoc, String.append_assoc] at hmat
  obtain ⟨hpq, hrest⟩ := append_eq_append_of_length (hp.trans hq.symm) hmat
  exact ⟨hpq, (append_eq_append_of_length rfl hrest).2⟩

/-- **The chain tip commits to the whole log.** With a hash that yields 64 characters, is injective on
the strings the two logs hash and never yields the genesis hash, two intact non-empty logs with the
same last recorded hash have the same length, the same recorded hashes and the same canonical events. -/
theorem chain_tip_commits (hlen : ∀ m, (sha256 m).length = 64)
    (hgenesis : ∀ m, "sha256:" ++ sha256 m ≠ genesisHash) (log₁ log₂ : List (Obj × String))
    (hinj : Set.InjOn sha256 (hashedStrings log₁ ∪ hashedStrings log₂))
    (hne₁ : log₁ ≠ []) (hne₂ : log₂ ≠ [])
    (hok₁ : verifyChain sha256 log₁ = []) (hok₂ : verifyChain sha256 log₂ = [])
    (htip : (log₁.getLast hne₁).2 = (log₂.getLast hne₂).2) :
    log₁.length = log₂.length ∧ log₁.map Prod.snd = log₂.map Prod.snd ∧
      log₁.map (fun x => canonicalEvent x.1) = log₂.map (fun x => canonicalEvent x.1) := by
  rw [verifyChain_eq_nil_iff] at hok₁ hok₂
  have hprev : ∀ log, Chained (chainHash sha256) genesisHash log →
      ∀ x ∈ links genesisHash log, x.1.length = 71 := by
    intro log hc
    exact hc.links_prev (P := fun h => h.length = 71) genesisHash_length (chainHash_length hlen)
  have hall := commits_of_tip_eq (R := fun e f => canonicalEvent e = canonicalEvent f)
    (fun p e => hgenesis _) log₁ log₂ hok₁ hok₂
    (fun x hx y hy hxy => chainHash_split _ hinj (hprev _ hok₁ x hx) (hprev _ hok₂ y hy)
      (Or.inl ⟨x, hx, rfl⟩) (Or.inr ⟨y, hy, rfl⟩) hxy)
    (by
      simp only [tip, List.getLast?_eq_getLast_of_ne_nil hne₁,
        List.getLast?_eq_getLast_of_ne_nil hne₂, Option.map_some, Option.getD_some]
      exact htip)
  refine ⟨hall.length_eq, ?_, ?_⟩
  · exact List.forall₂_eq_eq_eq ▸ List.forall₂_map_left_iff.mpr
      (List.forall₂_map_right_iff.mpr (hall.imp fun _ _ h => h.2))
  · exact List.forall₂_eq_eq_eq ▸ List.forall₂_map_left_iff.mpr
      (List.forall₂_map_right_iff.mpr (hall.imp fun _ _ h => h.1))

def sampleEvent (id : String) : Obj := [("id", .str id), ("subject", .str "ledger.posted")]

/-- The same event with its keys in another order. -/
def sampleEventReordered (id : String) : Obj := [("subject", .str "ledger.posted"), ("id", .str id)]

/-- The SHA-256 of the first entry of a log of two small events. -/
def firstDigest : String := "ce06c2c95632e94bba17f55e114aa486d16e7028853bbb4a11861eb3d85689ce"

def secondDigest : String := "e65f2c83704d36f0da5d2f67fbe2c3d18bba2028b2fc103f408fe8262fdf33b5"

/-- SHA-256 on the two strings hashed for that log, and some other digest elsewhere. -/
def sampleDigest (m : String) : String :=
  if m = genesisHash ++ "\n" ++ canonicalEvent (sampleEvent "e1") then firstDigest
  else if m = "sha256:" ++ firstDigest ++ "\n" ++ canonicalEvent (sampleEvent "e2") then secondDigest
  else String.ofList (List.replicate 64 'f')

/-- The log, written with either order of keys. -/
def sampleLog (event : String → Obj) : List (Obj × String) :=
  [(event "e1", "sha256:" ++ firstDigest), (event "e2", "sha256:" ++ secondDigest)]

/-- The hypotheses of `chain_tip_commits` hold for the two spellings of the small log. -/
theorem chain_tip_commits_sampleLog :
    verifyChain sampleDigest (sampleLog sampleEvent) = [] ∧
      verifyChain sampleDigest (sampleLog sampleEventReordered) = [] ∧
      (sampleLog sampleEvent).map (fun x => canonicalEvent x.1) =
        (sampleLog sampleEventReordered).map (fun x => canonicalEvent x.1) := by
  have hok₁ : verifyChain sampleDigest (sampleLog sampleEvent) = [] := by decide +kernel
  have hok₂ : verifyChain sampleDigest (sampleLog sampleEventReordered) = [] := by decide +kernel
  have hdigest : ∀ m, sampleDigest m = firstDigest ∨ sampleDigest m = secondDigest ∨
      sampleDigest m = String.ofList (List.replicate 64 'f') := by
    intro m
    unfold sampleDigest
    split_ifs <;> simp
  have hsame₁ : canonicalEvent (sampleEventReordered "e1") = canonicalEvent (sampleEvent "e1") := by
    decide +kernel
  have hsame₂ : canonicalEvent (sampleEventReordered "e2") = canonicalEvent (sampleEvent "e2") := by
    decide +kernel
  refine ⟨hok₁, hok₂, (chain_tip_commits ?_ ?_ _ _ ?_ (by simp [sampleLog]) (by simp [sampleLog])
    hok₁ hok₂ rfl).2.2⟩
  · intro m
    rcases hdigest m with h | h | h <;> rw [h] <;> rfl
  · intro m
    rcases hdigest m with h | h | h <;> rw [h] <;> decide +kernel
  · -- both spellings hash the same two strings, whose digests differ
    have hmem : ∀ m ∈ hashedStrings (sampleLog sampleEvent) ∪
        hashedStrings (sampleLog sampleEventReordered),
        m = genesisHash ++ "\n" ++ canonicalEvent (sampleEvent "e1") ∨
        m = "sha256:" ++ firstDigest ++ "\n" ++ canonicalEvent (sampleEvent "e2") := by
      rintro m (⟨x, hx, rfl⟩ | ⟨x, hx, rfl⟩) <;>
      · simp only [sampleLog, links, List.mem_cons, List.not_mem_nil, or_false] at hx
        rcases hx with rfl | rfl <;> simp [hsame₁, hsame₂]
    intro m hm m' hm' h
    rcases hmem m hm with rfl | rfl <;> rcases hmem m' hm' with rfl | rfl
    · rfl
    · exact absurd h (by decide +kernel)
    · exact absurd h (by decide +kernel)
    · rfl

end CaviErp

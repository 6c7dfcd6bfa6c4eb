import CaviErp.Forge.Proofs.ErpProofs

/-!
# Retries and newer writes

A retry repeats its PUT, so it brings back the values of its payload. No version or time stamp goes with
the PUT: where another write was completed on the record in the meantime, its values are lost.
-/

namespace CaviErp

open Py

namespace ForgeWriteAgent

/-- **Retries keep newer values where none of them is stale.** In every run whose calls retry no write
that was carried out on a record before another write, with another value for one of its fields, was
completed there: no replay of an approval changes a value that a write completed since gave to the
record. -/
theorem never_overwrites_of_not_stale (cfg : Config) (client : NetSuiteClient) (initial : Erp)
    (calls : List ErpCall)
    (h : ∀ before call after, calls = before ++ call :: after →
      ¬ Stale cfg client initial before call) :
    NeverOverwrites cfg client initial calls := by
  intro before call after hcalls writeId op₂ happroval hsince f v hf hv
  rw [run_snoc]
  rcases (step_spec cfg client (System.run cfg client before) call).history with
    hsame | ⟨writeId', op, returned, happroval', hop, hadmits, hcommits, hput⟩
  · rw [System.erp_of_same hsame]
    exact hv
  · obtain rfl : writeId = writeId' := happroval.unique happroval'
    rw [System.erp_of_put hput]
    refine Upsert.Store.field_put_of_agree hv ?_
    intro hrecord v' hf'
    -- a different value would make the retry stale
    by_contra hne
    exact h before call after hcalls
      ⟨writeId, op, op₂, happroval, hop, hadmits, hcommits, hsince, hrecord, f, v', v, hf', hf, hne, hv⟩

/-! ## Two updates of one customer -/

def customerUpdate (payload : Obj) : Event where
  subject := "forge.write.propose"
  schemaVersion := .int 1
  source := "console"
  id := "00000000-0000-0000-0000-00000000000a"
  payload := .obj
    [("tenant_id", "acme"), ("erp_platform", "netsuite"), ("operation", "update"),
      ("target_module", "Customer"), ("payload", .obj payload), ("requested_by", "ana"),
      ("target_external_id", "c-7")]

/-- The first update is carried out but its response is lost, the second one is completed, and then the
first one is retried. -/
def contestedRun (first second : Obj) : List ErpCall :=
  [⟨answered, orderEnv "0" "w-1" fun _ => .error "", customerUpdate first⟩,
    ⟨lost, orderEnv "1" "w-2" fun _ => .error "", approval "w-1"⟩,
    ⟨answered, orderEnv "2" "w-3" fun _ => .error "", customerUpdate second⟩,
    ⟨answered, orderEnv "3" "w-4" fun _ => .error "", approval "w-3"⟩,
    ⟨answered, orderEnv "4" "w-5" fun _ => .error "", approval "w-1"⟩]

/-- The records before the runs: the customer, with terms of 15 days. -/
def customers : Erp :=
  Function.update (fun _ => none) "c-7" (some fun f => if f = "terms" then some (.int 15) else none)

def secondUpdate (payload : Obj) : WriteOperation where
  writeId := "w-3"
  tenantId := "acme"
  erpPlatform := "netsuite"
  operation := "update"
  targetModule := "Customer"
  payload := payload
  requestedBy := "ana"
  diffPreview := .str noDryRunPreview
  state := .completed
  targetExternalId := "c-7"

/-- The second update is of another field. -/
def apartRun : List ErpCall := contestedRun [("terms", .int 30)] [("memo", "key account")]

theorem apartRun_not_stale (before : List ErpCall) (call : ErpCall) (after : List ErpCall)
    (hcalls : apartRun = before ++ call :: after) :
    ¬ Stale orderConfig exampleClient customers before call := by
  rintro ⟨writeId, op, op₂, happroval, hop, -, -, hsince, -, f, v, v₂, hf, hf₂, -, -⟩
  obtain ⟨-, -, -, -, -, hcompleted, -⟩ := hsince
  obtain ⟨p, hp, hreturned, -, hp₂⟩ := run_completedPut _ _ _ _ _ hcompleted
  have hbefore : before = apartRun.take before.length := by rw [hcalls, List.take_left]
  have hcall : apartRun[before.length]? = some call := by rw [hcalls]; simp
  have hlength : before.length < 5 := (List.getElem?_eq_some_iff.mp hcall).1
  by_cases hlast : before.length = 4
  · -- the retry of the first update, after the second one was completed
    rw [hlast] at hbefore hcall
    obtain rfl := Option.some.inj hcall
    obtain rfl : writeId = "w-1" := happroval.unique ⟨⟨rfl, rfl⟩, rfl⟩
    obtain ⟨hfirst, hsecond⟩ :
        (∀ op, (System.run orderConfig exampleClient (apartRun.take 4)).world.self.pending "w-1" =
          some op → op.payload = [("terms", .int 30)]) ∧
        ∀ p ∈ (System.run orderConfig exampleClient (apartRun.take 4)).history,
          p.returned = true → p.op.payload = [("memo", .str "key account")] := by decide +kernel
    rw [hbefore] at hop hp
    have hterms : op.payload = [("terms", .int 30)] := hfirst op hop
    have hmemo : op₂.payload = [("memo", .str "key account")] := by
      rw [← hsecond p hp hreturned, hp₂]
    unfold fieldsOf at hf hf₂
    rw [hterms] at hf
    rw [hmemo] at hf₂
    by_cases hfield : f = "terms"
    · rw [hfield] at hf₂
      cases hf₂
    · have hother : (f == "terms") = false := beq_false_of_ne hfield
      simp [Obj.get?, List.lookup_cons, hother] at hf
  · have hnone : ∀ k < 4, ∀ p ∈ (System.run orderConfig exampleClient (apartRun.take k)).history,
        p.returned = false := by decide +kernel
    rw [hbefore] at hp
    have hlost := hnone before.length (by omega) p hp
    rw [hreturned] at hlost
    cases hlost

/-- The hypothesis of `never_overwrites_of_not_stale` holds for the run, in which the second update is
completed between the lost response of the first one and its retry. -/
theorem never_overwrites_apartRun :
    CompletedSince orderConfig exampleClient (apartRun.take 4) "w-1"
        (secondUpdate [("memo", "key account")]) ∧
      NeverOverwrites orderConfig exampleClient customers apartRun := by
  refine ⟨⟨apartRun.take 2, (apartRun.drop 2).take 2, rfl, ?_⟩,
    never_overwrites_of_not_stale orderConfig exampleClient customers apartRun apartRun_not_stale⟩
  decide +kernel

/-- The second update is of the same field. -/
def overwritingRun : List ErpCall := contestedRun [("terms", .int 30)] [("terms", .int 60)]

/-- The terms are 60 days once the second update is completed, and 30 days after the retry. -/
theorem retry_overwrites_newer :
    ¬ NeverOverwrites orderConfig exampleClient customers overwritingRun := by
  intro h
  have hsince : CompletedSince orderConfig exampleClient (overwritingRun.take 4) "w-1"
      (secondUpdate [("terms", .int 60)]) := by
    refine ⟨overwritingRun.take 2, (overwritingRun.drop 2).take 2, rfl, ?_⟩
    decide +kernel
  have hkept := h (overwritingRun.take 4) overwritingRun[4] [] rfl "w-1" _ ⟨⟨rfl, rfl⟩, rfl⟩ hsince
    "terms" (.int 60) rfl (by decide +kernel)
  have hchanged : ((System.run orderConfig exampleClient overwritingRun).erp customers).field "c-7"
      "terms" = some (.int 30) := by decide +kernel
  exact absurd (hkept.symm.trans hchanged) (by decide)

end ForgeWriteAgent

end CaviErp

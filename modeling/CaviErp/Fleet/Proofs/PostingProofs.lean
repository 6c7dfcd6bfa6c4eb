import CaviErp.Fleet.Proofs.GateProofs
import CaviErp.Ledger.Proofs.BooksProofs

/-!
# The books of the fleet

Over Postgres the books of a run are those of the entries that the ledger was handed, one after the other:
the first admissible one under an id takes it, whatever is delivered again, lost or restarted.
-/

namespace CaviErp

open Py

namespace LedgerAgent

variable {σ : Type} (rt : Runtime) (store : LedgerStore σ) (env : Env)

/-- An event of a tenant posts the entry of its payload, if it has one. -/
theorem handle_posts {event : Event} (htenant : event.tenantId.truthy = true) (w : World σ) :
    (handle rt store env event w).2.self =
      (((asStr event.tenantId).bind fun tenantId =>
        JournalEntry.fromPayload event.payload tenantId).toOption).elim w.self
          fun entry => (Ledger.post store entry w.self).2 := by
  cases hid : asStr event.tenantId with
  | error e =>
    unfold handle
    rw [if_neg (by simp [htenant]), Action.bind_apply, hid]
    rfl
  | ok tenantId =>
    cases hentry : JournalEntry.fromPayload event.payload tenantId with
    | error e =>
      unfold handle
      rw [if_neg (by simp [htenant]), Action.bind_apply, hid]
      simp only [Action.ofExcept_apply, Action.bind_apply, hentry]
      simp [Except.bind, hentry, Except.toOption]
    | ok entry =>
      have htext : event.tenantId = .str tenantId := by
        cases ht : event.tenantId with
        | str s =>
          rw [ht] at hid
          cases hid
          rfl
        | _ =>
          rw [ht] at hid
          cases hid
      rw [handle_of_entry rt store env htext hentry]
      simp only [Except.bind, hentry, Except.toOption, Option.elim_some]
      cases (Ledger.post store entry w.self).1 with
      | error e => cases e <;> first | rfl | exact BaseAgent.emit_self ..
      | ok result =>
        obtain ⟨entryId, currency, status, totalMinor, lineCount⟩ := result
        cases status with
        | duplicate => rfl
        | posted => exact BaseAgent.emit_self ..

/-- A message that has an entry posts it, and any other leaves the books alone. -/
theorem onMessage_posts (text : String) (w : World σ) :
    (BaseAgent.onMessage rt env.infra (handle rt store env) { data := text } w).2.self =
      (Fleet.entryOf rt text).elim w.self fun entry => (Ledger.post store entry w.self).2 := by
  rcases onMessage_cases rt env.infra (handle rt store env) text w with
    ⟨e, hdecode, hmessage⟩ | ⟨event, e, hdecode, hbad, hmessage⟩ | ⟨event, hdecode, hvalid, hmessage⟩
  · rw [hmessage]
    simp [Fleet.entryOf, heard, hdecode, Except.toOption]
  · rw [hmessage, BaseAgent.deadLetter_self]
    simp [Fleet.entryOf, heard, hdecode, hbad, Except.toOption, Except.isOk, Except.toBool]
  · rw [hmessage]
    have hcontract : rt.registry.validate event.subject event.schemaVersion event.payload = .ok () := hvalid
    have hentry : Fleet.entryOf rt text = if event.tenantId.truthy then
        ((asStr event.tenantId).bind fun tenantId =>
          JournalEntry.fromPayload event.payload tenantId).toOption else none := by
      simp [Fleet.entryOf, heard, hdecode, hcontract, Except.toOption, Except.isOk, Except.toBool]
    rw [hentry]
    by_cases htenant : event.tenantId.truthy = true
    · rw [if_pos htenant]
      exact handle_posts rt store env htenant w
    · rw [if_neg htenant, handle_of_no_tenant rt store env (by simpa using htenant)]
      rfl

end LedgerAgent

namespace Fleet

variable {f : Fleet} {κ : Type} [DecidableEq κ] (srv : Postgres.Server κ)

/-- Over Postgres, whatever is delivered in whatever order, how often, and whatever is lost, restarted or
fails: what a tenant reads under an id is the first admissible of the entries that the ledger was handed
under it, if that is the tenant's own. -/
theorem books_of_presented {selves : ∀ a, Self (f.overPostgres srv).backends a} {past : List JournalEntry}
    (hpast : (Postgres.books srv).Keeps (selves .ledger) past) (store : EventStore)
    (running : AgentName → Bool) (steps : List (f.overPostgres srv).network.Step)
    (tenantId entryId : String) :
    (Postgres.store srv).get tenantId entryId
        ((((f.overPostgres srv).start selves store running).run steps).state .ledger).1 =
      (Postgres.books srv).shown tenantId entryId fun k =>
        ((Postgres.guard srv).holder
          (past ++ presented (((f.overPostgres srv).start selves store running).history steps)) k).filter
            fun entry => entry.tenantId = tenantId := by
  have hkeeps : (Postgres.books srv).Keeps
      ((((f.overPostgres srv).start selves store running).run steps).state .ledger).1
      (past ++ presented (((f.overPostgres srv).start selves store running).history steps)) := by
    refine Bus.Network.Config.replayed (N := (f.overPostgres srv).network) (i := .ledger)
      (K := fun state h => (Postgres.books srv).Keeps state.1 h)
      (fun m => (entryOf f.rt m.2).toList) ?_ (fun state h hkeeps => hkeeps) hpast steps
    intro env m state store h hkeeps
    have hposts := LedgerAgent.onMessage_posts f.rt (Postgres.store srv) env m.2
      { self := state.1, store := store, trace := state.2 }
    have hstate : (((f.overPostgres srv).network.react .ledger env m state store).state).1 =
        (entryOf f.rt m.2).elim state.1 fun entry => (Ledger.post (Postgres.store srv) entry state.1).2 :=
      hposts
    rw [hstate]
    cases entryOf f.rt m.2 with
    | none =>
      rw [Option.toList_none, List.append_nil]
      exact hkeeps
    | some entry => exact (Postgres.books srv).post_snd hkeeps entry
  exact (Postgres.books srv).get_eq hkeeps tenantId entryId

/-- The attributes of new agents over empty tables. -/
def newbornOver : (a : AgentName) → Self (localFleet.overPostgres saleServer).backends a
  | .ledger => ({} : Postgres.Tables Uuid)
  | .forge => newborn .forge
  | .forgeWrite => newborn .forgeWrite
  | .ledgerQuery => newborn .ledgerQuery
  | .ledgerReconcile => newborn .ledgerReconcile
  | .mapper => newborn .mapper
  | .erpMapper => newborn .erpMapper
  | .ticker => newborn .ticker
  | .tickerWebhook => newborn .tickerWebhook
  | .vault => newborn .vault
  | .beacon => newborn .beacon
  | .beaconReport => newborn .beaconReport

/-- A sale that is delivered twice, with a restart of the ledger between. -/
theorem books_of_presented_sale :
    let start := (localFleet.overPostgres saleServer).start newbornOver {} fun _ => true
    let steps : List (localFleet.overPostgres saleServer).network.Step :=
      [.inject (postOf (saleEvent "acme")), .deliver .ledger 0 saleEnv, .start .ledger,
        .inject (postOf (saleEvent "acme")), .deliver .ledger 0 saleEnv]
    (Postgres.store saleServer).get "acme" "00000000-0000-0000-0000-0000000000ab"
        ((start.run steps).state .ledger).1 =
      (Postgres.books saleServer).shown "acme" "00000000-0000-0000-0000-0000000000ab" fun k =>
        ((Postgres.guard saleServer).holder ([] ++ presented (start.history steps)) k).filter
          fun entry => entry.tenantId = "acme" := by
  exact books_of_presented saleServer (Postgres.books saleServer).init {} _ _ _ _

end Fleet

end CaviErp

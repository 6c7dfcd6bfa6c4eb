import CaviErp.Ledger.Proofs.BooksProofs
import CaviErp.Shared.Events

/-!
# Tenants and the shared ids

Reads are scoped by tenant, but both stores guard an insert by the entry id alone. So a tenant is served
as if it were alone exactly as long as it does not post under an id that another tenant took first.
-/

namespace CaviErp

open Py FirstWriter

/-- For either store: a tenant's results and everything it reads are those of the run without the other
tenants if and only if no keyed post of the tenant comes after another tenant's post that took its
key. -/
theorem noninterfering_iff_no_foreign_id {κ : Type} [DecidableEq κ] (srv : Postgres.Server κ)
    (tenantId : String) (l : List JournalEntry) :
    (Noninterfering InMemoryLedgerStore.store InMemoryLedgerStore.empty tenantId l ↔
      InMemoryLedgerStore.guard.Undisturbed (fun e => e.tenantId = tenantId) l) ∧
    (Noninterfering (Postgres.store srv) {} tenantId l ↔
      (Postgres.guard srv).Undisturbed (fun e => e.tenantId = tenantId) l) := by
  refine ⟨?_, ?_⟩
  · exact InMemoryLedgerStore.books.noninterfering_iff tenantId l
  · exact (Postgres.books srv).noninterfering_iff tenantId l

/-! ## Two tenants, one id -/

/-- A sale of 25.00. -/
def sale (tenantId : String) : JournalEntry where
  entryId := "00000000-0000-0000-0000-0000000000ab"
  tenantId := tenantId
  currency := "USD"
  lines := [⟨"1000-cash", .debit, 2500⟩, ⟨"4000-revenue", .credit, 2500⟩]

/-- A server as it treats the texts of a `sale`. -/
def saleServer : Postgres.Server Uuid where
  uuid := parseUuid
  char3 := fun s => if s.length = 3 then some s else none
  storable := fun s => !s.toList.contains (Char.ofNat 0)

/-- The second tenant's post is answered `duplicate`, and `posted` without the first. -/
theorem sale_interferes :
    ¬ Noninterfering InMemoryLedgerStore.store InMemoryLedgerStore.empty "globex"
        [sale "acme", sale "globex"] ∧
      ¬ Noninterfering (Postgres.store saleServer) {} "globex" [sale "acme", sale "globex"] := by
  refine ⟨?_, ?_⟩
  · rintro ⟨h, -⟩
    have hmap := congrArg (List.map Prod.snd) h
    revert hmap
    decide +kernel
  · rintro ⟨h, -⟩
    have hmap := congrArg (List.map Prod.snd) h
    revert hmap
    decide +kernel

end CaviErp

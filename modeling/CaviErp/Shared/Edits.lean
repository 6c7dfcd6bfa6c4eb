import Mathlib.Data.Finset.Basic
import CaviErp.Lib.HashChain
import CaviErp.Shared.Events

/-!
# Edits of a recorded log

Events of a log are replaced while the hashes recorded for them stay. `verify_chain` goes on from the recorded
hash of each entry, so what it reports of one position does not depend on edits at others.
-/

namespace CaviErp

open Py

/-- Events with one id, as the set of ids seen compares them. -/
def sameId (e e' : Event) : Bool := e'.id.dictKey == e.id.dictKey

variable (log : List (Obj × String)) (S : Finset Nat) (replacement : Nat → Obj)

/-- The log with other events at the positions in `S`. -/
def edited : List (Obj × String) :=
  log.mapIdx fun position entry => if position ∈ S then (replacement position, entry.2) else entry

/-- The hash recorded before a position. -/
def recordedBefore (position : Nat) : String := HashChain.tip genesisHash (log.take position)

/-- The hash recorded at a position. -/
def recordedAt (position : Nat) : String := (log[position]?.map Prod.snd).getD ""

/-- What `verify_chain` reports of an edit. -/
def editBreak (sha256 : String → String) (position : Nat) : String :=
  chainBreak position (replacement position) (recordedAt log position)
    (chainHash sha256 (recordedBefore log position) (replacement position))

/-- The positions in `S`, in the order of the log. -/
def editedPositions : List Nat := (List.range log.length).filter (· ∈ S)

end CaviErp

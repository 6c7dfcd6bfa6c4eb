import CaviErp.Forge.Recording

/-!
# Redelivery of proposals and reversals

The bus delivers an event at least once. `Harmless` says that a run is none the worse for it: a proposal or
a reversal that was delivered before adds no pending write.
-/

namespace CaviErp

open Py

namespace ForgeWriteAgent

/-- A proposal or a reversal whose event was delivered before. -/
def Redelivered (before : List (Env × Event)) (event : Event) : Prop :=
  (event.subject = "forge.write.propose" ∨ event.subject = "forge.write.reverse") ∧
    ∃ d ∈ before, d.2.id = event.id

instance (before : List (Env × Event)) (event : Event) : Decidable (Redelivered before event) :=
  inferInstanceAs (Decidable (_ ∧ _))

/-- The calls without the redeliveries, where `before` was delivered already. -/
def firstDeliveries (before : List (Env × Event)) : List (Env × Event) → List (Env × Event)
  | [] => []
  | c :: rest =>
    if Redelivered before c.2 then firstDeliveries (before ++ [c]) rest
    else c :: firstDeliveries (before ++ [c]) rest

/-- No redelivery makes another write pending, and the writes that were ever pending are those of the run
without redeliveries. -/
structure Harmless (cfg : Config) (calls : List (Env × Event)) : Prop where
  adds : ∀ before c after, calls = before ++ c :: after → Redelivered before c.2 →
    ∀ writeId, (served cfg before).self.pending writeId = none →
      (served cfg (before ++ [c])).self.pending writeId = none
  same : ∀ writeId, Proposed cfg calls writeId ↔ Proposed cfg (firstDeliveries [] calls) writeId

end ForgeWriteAgent

end CaviErp

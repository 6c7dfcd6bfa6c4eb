import CaviErp.Forge.Lifecycle

/-!
# The write agent on the bus

In production the write agent gets its events from `run`, as JSON messages that `_dispatch` validates
first. `runAll` is that path, for the calls that `handleAll` makes directly.
-/

namespace CaviErp

open Py

namespace ForgeWriteAgent

variable (cfg : Config)

def messagesOf (calls : List (Env × Event)) : List (Env × Message) :=
  calls.map fun c => (c.1, .ofDict c.2.toDict)

/-- `run`, fed with the messages of the events. -/
def runAll (calls : List (Env × Event)) : Action World PyError Unit :=
  BaseAgent.run cfg.rt Env.infra (handle cfg) (messagesOf calls)

/-- The dictionaries, the writer calls and the emitted events are those of the direct calls. -/
def RunAgrees (calls : List (Env × Event)) : Prop :=
  view (runAll cfg calls { self := {} }).2 = view (handleAll cfg calls { self := {} }).2

def DryRunFails (env : Env) (event : Event) : Prop :=
  ∃ e, (WriteRequest.ofKwargs event.payload >>= env.coordinator.request) = .error e ∧
    e.isErpWriteError = true

end ForgeWriteAgent

end CaviErp

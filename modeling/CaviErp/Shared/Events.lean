import CaviErp.Lib.JsonText
import CaviErp.Base.Contract
import CaviErp.Shared.Audit

/-!
# The event store

`shared/events.py`: the append-only record behind the bus, idempotent on the event id, with its hash
chain. The store modelled is `InMemoryEventStore`; `PostgresEventStore` keeps the same rows.
-/

namespace CaviErp

open Py

/-! ## UUIDs -/

/-- A UUID, by its 128-bit value. -/
abbrev Uuid := Nat

/-- Remove every occurrence of a fixed text, left to right (`s.replace(text, "")`). -/
def removeAll (text : List Char) : Nat → List Char → List Char
  | 0, cs => cs
  | _ + 1, [] => []
  | n + 1, c :: cs =>
    if text.isPrefixOf (c :: cs) then removeAll text n ((c :: cs).drop text.length)
    else c :: removeAll text n cs

def stripChars (chars : List Char) (cs : List Char) : List Char :=
  ((cs.dropWhile chars.contains).reverse.dropWhile chars.contains).reverse

/-- Hexadecimal digits with single underscores between them. -/
def hexDigits : Nat → List Char → Option Nat
  | acc, [] => some acc
  | _, ['_'] => none
  | acc, '_' :: c :: cs => (JsonText.hexVal c).bind fun d => hexDigits (acc * 16 + d) cs
  | acc, c :: cs => (JsonText.hexVal c).bind fun d => hexDigits (acc * 16 + d) cs

/-- `int(text, 16)` of a text without a minus sign: surrounding blanks, a plus sign and a `0x` prefix are
allowed. -/
def parseHex (cs : List Char) : Option Nat :=
  let cs := stripChars [' ', '\t', '\n', '\r', '\x0b', '\x0c'] (cs.map asciiChar)
  let cs := match cs with
    | '+' :: rest => rest
    | cs => cs
  match cs with
  | '0' :: x :: c :: rest =>
    if x = 'x' ∨ x = 'X' then hexDigits 0 (c :: rest)
    else hexDigits 0 cs
  | [] => none
  | '_' :: _ => none
  | cs => hexDigits 0 cs

/-- `uuid.UUID(text)`; `none` for a `ValueError`. -/
def parseUuid (text : String) : Option Uuid :=
  let cs := text.toList
  let cs := removeAll "urn:".toList cs.length cs
  let cs := removeAll "uuid:".toList cs.length cs
  let cs := (stripChars ['{', '}'] cs).filter (· != '-')
  if cs.length = 32 then parseHex cs else none

/-- The last `n` hexadecimal digits of a number. -/
def hexText : Nat → Nat → List Char
  | 0, _ => []
  | n + 1, u => hexText n (u / 16) ++ [Nat.digitChar (u % 16)]

/-- `str(uuid)`: 32 lower-case digits in groups of 8, 4, 4, 4 and 12. -/
def uuidText (u : Uuid) : String :=
  let h := hexText 32 u
  String.ofList (h.take 8 ++ '-' :: (h.drop 8).take 4 ++ '-' :: (h.drop 12).take 4 ++
    '-' :: (h.drop 16).take 4 ++ '-' :: h.drop 20)

def asUuid (value : Json) : Option Uuid := if value.truthy then parseUuid value.pyStr else none

/-! ## The store -/

/-- `chain_envelope`: the envelope as the store persists it. A correlation id that is no UUID persists
as `NULL`. -/
def chainEnvelope (event : Event) : Obj :=
  event.toDict.set "correlation_id"
    (match asUuid event.correlationId with
      | some u => .str (uuidText u)
      | none => .null)

/-- `InMemoryEventStore`; the sets of ids seen are those of the lists. -/
structure EventStore where
  events : List Event := []
  chainHashes : List String := []
  deadletters : List Obj := []
deriving DecidableEq, Repr

namespace EventStore

variable (sha256 : String → String)

/-- `event.id in self._event_ids`. -/
def hasEvent (s : EventStore) (event : Event) : Bool :=
  s.events.any fun e => e.id.dictKey == event.id.dictKey

def recordEvent (s : EventStore) (event : Event) : EventStore :=
  if s.hasEvent event then s
  else
    let prev := s.chainHashes.getLast?.getD genesisHash
    { s with
      chainHashes := s.chainHashes ++ [chainHash sha256 prev (chainEnvelope event)]
      events := s.events ++ [event] }

/-- Calls of `record_event` one after the other, on a new store. -/
def recordAll (events : List Event) : EventStore := events.foldl (recordEvent sha256) {}

/-- The log as `verify_chain` takes it: each envelope as persisted, with its chain hash. -/
def entries (s : EventStore) : List (Obj × String) :=
  (s.events.map chainEnvelope).zip s.chainHashes

/-- `str(envelope.get("id"))`. -/
def deadletterKey (envelope : Obj) : String := (envelope.get "id").pyStr

def recordDeadletter (s : EventStore) (envelope : Obj) : EventStore :=
  if s.deadletters.any fun d => deadletterKey d == deadletterKey envelope then s
  else { s with deadletters := s.deadletters ++ [envelope] }

end EventStore

end CaviErp

import Mathlib.Data.List.Count
import Sentinel.Distributed.System
import Sentinel.Distributed.Wire

/-!
# The worker's loop, on bytes

The broker keeps bytes, and other producers write to its topics too. `run` of the worker validates
whatever it polls. What is no event goes to the dead-letter topic under the coordinates of the
message, and its offset is committed; an event is processed as before.

`WireSystem` is the distributed system at this level. It shares the parties of `System`: a call of
`submit` and a delivery make the same requests, and a publication appends the bytes of its payload.
Neither ever reads the log, so both run against a view of the cluster with an empty log, and what
they have added to it is encoded and sent.

A message of the platform carries, as history, the payload it was sent for. Leaving out the other
messages and renumbering the offsets gives a state of `System`.
-/

namespace Sentinel

open Text

def Topic.name : Topic → String
  | .input => "sentinel.moderation.input.v1"
  | .retry => "sentinel.moderation.retry.v1"
  | .result => "sentinel.moderation.result.v1"
  | .dlq => "sentinel.moderation.dlq.v1"

structure WireMessage (β : Type) where
  topic : Topic
  key : String
  value : β
  partition : ℕ
  /-- Whether the publisher was told that the broker has it. -/
  acknowledged : Bool
  /-- History: the payload, if `submit` or `process` has sent the message. -/
  origin : Option Payload

inductive Turn
  /-- In `processor.process(event)`, or about to commit after it. -/
  | process (delivery : Delivery)
  /-- At `invalid_event_publisher.publish` for the message at the offset. -/
  | publishInvalid (offset : ℕ)
  /-- At the commit of an invalid message. -/
  | commitInvalid (offset : ℕ)

structure WireSystem (β : Type) where
  store : RedisJobStore
  created : List StoredModerationJob
  engineRuns : List EngineRun
  log : List (WireMessage β)
  committed : List ℕ
  submits : ℕ → Option SubmitCall
  workers : ℕ → Option Turn

/-- One step of one party. -/
inductive WireAction (β : Type)
  /-- A step of the platform; what it publishes goes to the partition. -/
  | act (a : Action) (partition : ℕ)
  /-- Another producer writes to a topic. -/
  | produce (topic : Topic) (key : String) (value : β) (partition : ℕ)
  /-- A worker sends the dead letter of an invalid message. -/
  | publishInvalid (worker : ℕ) (outcome : PublishOutcome) (partition : ℕ)
  /-- A worker commits the offset of an invalid message. -/
  | commitInvalid (worker : ℕ)

/-! ## Dead letters of invalid messages -/

/-- `message.offset()`: the number of messages before it in its partition of its topic. -/
def brokerOffset {β : Type} (log : List (WireMessage β)) (offset : ℕ) (message : WireMessage β) :
    ℕ :=
  (log.take offset).countP fun earlier ↦
    earlier.topic = message.topic ∧ earlier.partition = message.partition

/-- `invalid_payload`, before it is encoded. -/
def invalidPayload {β : Type} (log : List (WireMessage β)) (offset : ℕ) (message : WireMessage β) :
    Json :=
  .object [("error_code", .string "invalid_event_schema"),
    ("source_topic", .string message.topic.name),
    ("partition", .number (.nat message.partition)),
    ("offset", .number (.nat (brokerOffset log offset message)))]

/-- `f"invalid-{message.partition()}-{message.offset()}"`. -/
def invalidKey {β : Type} (log : List (WireMessage β)) (offset : ℕ) (message : WireMessage β) :
    String :=
  "invalid-" ++ toString message.partition ++ "-" ++ toString (brokerOffset log offset message)

def invalidLetter {β : Type} (format : WireFormat β) (log : List (WireMessage β)) (offset : ℕ)
    (message : WireMessage β) (partition : ℕ) (acknowledged : Bool) : WireMessage β where
  topic := .dlq
  key := invalidKey log offset message
  value := format.encode (invalidPayload log offset message).dumps
  partition := partition
  acknowledged := acknowledged
  origin := none

namespace WireSystem

variable {β : Type}

/-! ## The step function -/

def init : WireSystem β := ⟨RedisJobStore.empty, [], [], [], [], fun _ ↦ none, fun _ ↦ none⟩

/-- The cluster as a party of the platform sees it: without the log. -/
def view (w : WireSystem β) : Cluster := ⟨w.store, [], [], w.created, w.engineRuns⟩

def send (format : WireFormat β) (partition : ℕ) (message : Message) : WireMessage β where
  topic := message.topic
  key := message.key
  value := format.bytes message.payload
  partition := partition
  acknowledged := message.acknowledged
  origin := some message.payload

def after (format : WireFormat β) (partition : ℕ) (w : WireSystem β) (c : Cluster) :
    WireSystem β :=
  { w with
    store := c.store
    created := c.created
    engineRuns := c.engineRuns
    log := w.log ++ c.log.map (send format partition) }

def setTurn (w : WireSystem β) (worker : ℕ) (turn : Option Turn) : WireSystem β :=
  { w with workers := Function.update w.workers worker turn }

def setCall (w : WireSystem β) (client : ℕ) (call : SubmitCall) : WireSystem β :=
  { w with submits := Function.update w.submits client (some call) }

/-- The validation of a polled message, and where it leads. -/
def receive (format : WireFormat β) (offset : ℕ) (message : WireMessage β) : Turn :=
  match format.readEvent message.value with
  | some event => .process ⟨offset, event, .get⟩
  | none => .publishInvalid offset

/-- The publication of the dead letter of an invalid message. An exception ends the worker. -/
def publishInvalid (format : WireFormat β) (w : WireSystem β) (worker offset : ℕ)
    (message : WireMessage β) (partition : ℕ) : PublishOutcome → WireSystem β
  | .acknowledged =>
    { w with log := w.log ++ [invalidLetter format w.log offset message partition true] }.setTurn
      worker (some (.commitInvalid offset))
  | .lost => w.setTurn worker none
  | .unacknowledged =>
    { w with log := w.log ++ [invalidLetter format w.log offset message partition false] }.setTurn
      worker none

def step (format : WireFormat β) (H : Hashing) (maxAttempts : ℤ) (w : WireSystem β) :
    WireAction β → Option (WireSystem β)
  | .act (.submit client request uuid4 now) _ =>
    match w.submits client with
    | none => some (w.setCall client (submit H request uuid4 now))
    | some _ => none
  | .act (.submitStep client now outcome) partition =>
    match w.submits client with
    | none => none
    | some call => (call.step H now outcome w.view).map fun (c, point) ↦
        (w.after format partition c).setCall client { call with point := point }
  | .act (.submitCrash client) _ =>
    match w.submits client with
    | none => none
    | some call =>
      if call.point.inProgress then some (w.setCall client { call with point := .crashed })
      else none
  | .act (.poll worker offset) _ =>
    match w.workers worker, w.log[offset]? with
    | none, some message =>
      if message.topic.subscribed then
        some (w.setTurn worker (some (receive format offset message)))
      else none
    | _, _ => none
  | .act (.processStep worker now outcome reply) partition =>
    match w.workers worker with
    | some (.process delivery) =>
      (delivery.step maxAttempts now outcome reply w.view).map fun (c, point) ↦
        (w.after format partition c).setTurn worker
          (point.map fun point ↦ .process { delivery with point := point })
    | _ => none
  | .act (.commit worker) _ =>
    match w.workers worker with
    | some (.process delivery) =>
      if delivery.point = .returned then
        some ({ w with committed := delivery.offset :: w.committed }.setTurn worker none)
      else none
    | _ => none
  | .act (.workerCrash worker) _ =>
    match w.workers worker with
    | none => none
    | some _ => some (w.setTurn worker none)
  | .act (.expire jobId) _ => some { w with store := w.store.expire jobId }
  | .produce topic key value partition =>
    some { w with log := w.log ++ [⟨topic, key, value, partition, true, none⟩] }
  | .publishInvalid worker outcome partition =>
    match w.workers worker with
    | some (.publishInvalid offset) => w.log[offset]?.map fun message ↦
        publishInvalid format w worker offset message partition outcome
    | _ => none
  | .commitInvalid worker =>
    match w.workers worker with
    | some (.commitInvalid offset) =>
      some ({ w with committed := offset :: w.committed }.setTurn worker none)
    | _ => none

abbrev run (format : WireFormat β) (H : Hashing) (maxAttempts : ℤ) :
    WireSystem β → List (WireAction β) → Option (WireSystem β) :=
  Transition.run (step format H maxAttempts)

end WireSystem

end Sentinel

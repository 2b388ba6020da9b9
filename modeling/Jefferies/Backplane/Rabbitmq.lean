import Jefferies.Collections.Json
import Jefferies.Coordination.Message
import Jefferies.Interaction.System
import Jefferies.Messaging.Broadcast
import Jefferies.Messaging.Topics

/-!
# The backplane over RabbitMQ

An event goes to a topic exchange under a key of its run. Who subscribes to a run has a queue of its own bound to that key,
and takes one event after the other from it, each acknowledged before it is handed on.
-/

namespace Jefferies.Backplane

open Coordination Interaction Interact Json

/-! ## Events on the wire -/

def eventCodec : Codec BackplaneEvent where
  write
    | .nodeCompleted nodeName success => record [("NodeCompleted", some (record [
        ("node_name", some (Codec.text.write nodeName)),
        ("success", some (Codec.flag.write success))]))]
    | .cancel => .string "Cancel"
  read
    | .string "Cancel" => some .cancel
    | .object [("Cancel", .null)] => some .cancel
    | .object [("NodeCompleted", content)] => do
        let nodeName ← Codec.text.readRequired (← content.field "node_name")
        let success ← Codec.flag.readRequired (← content.field "success")
        return .nodeCompleted nodeName success
    | _ => none
  read_write
    | .nodeCompleted nodeName success => by simp [record, field, Codec.readRequired]
    | .cancel => rfl
  write_ne_null
    | .nodeCompleted .. => record_ne_null _
    | .cancel => by simp

/-! ## The calls -/

def jefferiesExchange : String := "jefferies.events"

def routingKey (runId : String) : String := "run." ++ runId

def queueName (runId : String) : String := "jefferies.coordinator." ++ runId

structure Consumer where
  tag : Nat
  queue : String
  deriving DecidableEq

/-- What comes of an await: a result, or the future is dropped by the one that polls it. -/
inductive Awaited (α : Type) where
  | done (a : α)
  | dropped

/-- The calls to the pool and, over a connection, to the broker. An exchange is declared as a durable topic exchange, and
a queue as exclusive to its connection and deleted with its last consumer. -/
inductive AmqpEffect where
  | get
  | createChannel (connection : Nat)
  | exchangeDeclare (connection : Nat) (exchange : String)
  | basicPublish (connection : Nat) (exchange routingKey : String) (payload : Json)
  | queueDeclare (connection : Nat) (queue : String)
  | queueBind (connection : Nat) (queue exchange routingKey : String)
  | basicConsume (connection : Nat) (queue : String)
  | next (consumer : Consumer)
  | ack (delivery : Json)
  | nack (delivery : Json)

@[reducible] def AmqpResp : AmqpEffect → Type
  | .get => Except String Nat
  | .createChannel _ => Except String Unit
  | .exchangeDeclare .. => Except String Unit
  | .basicPublish .. => Except String Unit
  | .queueDeclare .. => Except String Unit
  | .queueBind .. => Except String Unit
  | .basicConsume .. => Except String Consumer
  | .next _ => Awaited (Option (Except String Json))
  | .ack _ => Awaited (Except String Unit)
  | .nack _ => Awaited (Except String Unit)

/-- One who uses the backplane: for which run, with which subscription, what `next_event` has returned, and what was in
its hands when it was dropped. -/
structure Session where
  runId : String
  consumer : Option Consumer
  heard : List BackplaneEvent
  dropped : List BackplaneEvent
  deriving DecidableEq

/-- A computation of the backplane. -/
abbrev Amqp (α : Type) : Type := Interact Session AmqpResp α

abbrev amqp (e : AmqpEffect) : Amqp (AmqpResp e) := perform e

/-! ## The backplane -/

def publishEvent (runId : String) (event : BackplaneEvent) : Amqp (Except BackplaneError Unit) := do
  match ← amqp .get with
  | .error e => return .error (.pool e)
  | .ok conn =>
      match ← amqp (.createChannel conn) with
      | .error e => return .error (.amqp e)
      | .ok () =>
          match ← amqp (.exchangeDeclare conn jefferiesExchange) with
          | .error e => return .error (.amqp e)
          | .ok () =>
              match ← amqp (.basicPublish conn jefferiesExchange (routingKey runId) (eventCodec.write event)) with
              | .error e => return .error (.amqp e)
              | .ok () => return .ok ()

def publishNodeCompleted (runId nodeName : String) (success : Bool) : Amqp (Except BackplaneError Unit) :=
  publishEvent runId (.nodeCompleted nodeName success)

def publishCancel (runId : String) : Amqp (Except BackplaneError Unit) := publishEvent runId .cancel

def subscribeRun (runId : String) : Amqp (Except BackplaneError Consumer) := do
  match ← amqp .get with
  | .error e => return .error (.pool e)
  | .ok conn =>
      match ← amqp (.createChannel conn) with
      | .error e => return .error (.amqp e)
      | .ok () =>
          match ← amqp (.exchangeDeclare conn jefferiesExchange) with
          | .error e => return .error (.amqp e)
          | .ok () =>
              match ← amqp (.queueDeclare conn (queueName runId)) with
              | .error e => return .error (.amqp e)
              | .ok () =>
                  match ← amqp (.queueBind conn (queueName runId) jefferiesExchange (routingKey runId)) with
                  | .error e => return .error (.amqp e)
                  | .ok () =>
                      match ← amqp (.basicConsume conn (queueName runId)) with
                      | .error e => return .error (.amqp e)
                      | .ok consumer => return .ok consumer

/-- What a turn of the loop in `next_event` comes to; where the future is dropped, with the event that it had in hand. -/
inductive Turn where
  | again
  | returns (event : Option BackplaneEvent)
  | dropped (event : Option BackplaneEvent)

def nextEvent (consumer : Consumer) : Amqp Turn := do
  match ← amqp (.next consumer) with
  | .dropped => return .dropped none
  | .done none => return .returns none
  | .done (some (.error _)) => return .returns none
  | .done (some (.ok delivery)) =>
      match eventCodec.read delivery with
      | some event =>
          match ← amqp (.ack delivery) with
          | .dropped => return .dropped (some event)
          | .done _ => return .returns (some event)
      | none =>
          match ← amqp (.nack delivery) with
          | .dropped => return .dropped none
          | .done _ => return .again

/-! ## Those who use it -/

inductive Ended where
  | published (r : Except BackplaneError Unit)
  | refused (e : BackplaneError)
  | closed

def publishing (m : Amqp (Except BackplaneError Unit)) : Amqp (Option Ended) := do return some (.published (← m))

def subscribing (runId : String) : Amqp (Option Ended) := do
  match ← subscribeRun runId with
  | .error e => return some (.refused e)
  | .ok consumer => do
      modify fun s => { s with consumer := some consumer }
      return none

/-- The select loop of a coordinator: it polls `next_event`, and drops it where another branch is ready first. -/
def listening : Amqp (Option Ended) := do
  let s ← Interact.get
  match s.consumer with
  | none => return none
  | some consumer =>
      match ← nextEvent consumer with
      | .again => return none
      | .returns (some event) => do
          modify fun s => { s with heard := s.heard ++ [event] }
          return none
      | .returns none => return some .closed
      | .dropped event => do
          modify fun s => { s with dropped := s.dropped ++ event.toList }
          return none

/-! ## The broker -/

/-- A queue: whose it is, the keys that it is bound to and since how many messages, what waits in it, its consumers, all
consumers that it ever had, and what they took. -/
structure Queue where
  connection : Nat
  bindings : List (String × Nat)
  ready : List Json
  consumers : List Nat
  admitted : List Nat
  taken : List Json

/-- The broker, with every message that was published, each with its routing key. -/
structure Broker where
  queues : HashMap String Queue
  tags : Nat
  routed : List (String × Json)

def Broker.empty : Broker := ⟨∅, 0, []⟩

/-- How a call fares. -/
inductive Fate where
  | connected (connection : Nat)
  | served
  | refused (message : String)
  | lost (message : String)
  | ended
  | dropped

/-- What happens from outside: one begins to use the backplane, somebody else sends a message to the exchange, a consumer
leaves, the connection of a queue breaks down. -/
inductive Incident where
  | publishNodeCompleted (runId nodeName : String) (success : Bool)
  | publishCancel (runId : String)
  | subscribe (runId : String)
  | foreign (routingKey : String) (payload : Json)
  | consumerGoes (consumer : Consumer)
  | queueGoes (queue : String)

namespace Queue

def put (self : Queue) (key : String) (payload : Json) : Queue :=
  if self.bindings.any fun b => Messaging.topicMatches b.1 key then { self with ready := self.ready ++ [payload] } else self

def bind (self : Queue) (key : String) (now : Nat) : Queue :=
  if key ∈ self.bindings.map Prod.fst then self else { self with bindings := self.bindings ++ [(key, now)] }

end Queue

namespace Broker

def publish (self : Broker) (key : String) (payload : Json) : Broker :=
  { self with queues := self.queues.mapValues (·.put key payload), routed := self.routed ++ [(key, payload)] }

/-- A queue that is there is declared again by its own connection only. -/
def declare (self : Broker) (connection : Nat) (queue : String) : Except String Unit × Broker :=
  match self.queues.lookup queue with
  | none => (.ok (), { self with queues := self.queues.insert queue ⟨connection, [], [], [], [], []⟩ })
  | some q => if q.connection = connection then (.ok (), self) else (.error "RESOURCE_LOCKED", self)

def bind (self : Broker) (connection : Nat) (queue key : String) : Except String Unit × Broker :=
  match self.queues.lookup queue with
  | none => (.error "NOT_FOUND", self)
  | some q =>
      if q.connection = connection then
        (.ok (), { self with queues := self.queues.insert queue (q.bind key self.routed.length) })
      else (.error "RESOURCE_LOCKED", self)

def consume (self : Broker) (connection : Nat) (queue : String) : Except String Consumer × Broker :=
  match self.queues.lookup queue with
  | none => (.error "NOT_FOUND", self)
  | some q =>
      if q.connection = connection then
        let q := { q with consumers := q.consumers ++ [self.tags], admitted := q.admitted ++ [self.tags] }
        (.ok ⟨self.tags, queue⟩, { self with queues := self.queues.insert queue q, tags := self.tags + 1 })
      else (.error "RESOURCE_LOCKED", self)

/-- The next message for a consumer, where there is one. -/
def deliver (self : Broker) (consumer : Consumer) : Option (Json × Broker) :=
  match self.queues.lookup consumer.queue with
  | none => none
  | some q =>
      if consumer.tag ∈ q.consumers then
        match q.ready with
        | [] => none
        | payload :: ready =>
            some (payload, { self with
              queues := self.queues.insert consumer.queue { q with ready := ready, taken := q.taken ++ [payload] } })
      else none

/-- A queue goes with the last of its consumers. -/
def leave (self : Broker) (consumer : Consumer) : Broker :=
  match self.queues.lookup consumer.queue with
  | none => self
  | some q =>
      if consumer.tag ∈ q.consumers then
        if q.consumers.erase consumer.tag = [] then { self with queues := self.queues.erase consumer.queue }
        else
          { self with
            queues := self.queues.insert consumer.queue { q with consumers := q.consumers.erase consumer.tag } }
      else self

/-- What a call is answered, and the broker then; a call to `next` is not answered before there is something to answer. -/
def respond (self : Broker) : (e : AmqpEffect) → Fate → Option (AmqpResp e × Broker)
  | .get, .connected connection => some (.ok connection, self)
  | .get, .refused message => some (.error message, self)
  | .createChannel _, .served => some (.ok (), self)
  | .createChannel _, .refused message => some (.error message, self)
  | .exchangeDeclare .., .served => some (.ok (), self)
  | .exchangeDeclare .., .refused message => some (.error message, self)
  | .basicPublish _ _ key payload, .served => some (.ok (), self.publish key payload)
  | .basicPublish _ _ key payload, .lost message => some (.error message, self.publish key payload)
  | .basicPublish .., .refused message => some (.error message, self)
  | .queueDeclare connection queue, .served => some (self.declare connection queue)
  | .queueDeclare connection queue, .lost message => some (.error message, (self.declare connection queue).2)
  | .queueDeclare .., .refused message => some (.error message, self)
  | .queueBind connection queue _ key, .served => some (self.bind connection queue key)
  | .queueBind connection queue _ key, .lost message => some (.error message, (self.bind connection queue key).2)
  | .queueBind .., .refused message => some (.error message, self)
  | .basicConsume connection queue, .served => some (self.consume connection queue)
  | .basicConsume .., .refused message => some (.error message, self)
  | .next consumer, .served => (self.deliver consumer).map fun r => (.done (some (.ok r.1)), r.2)
  | .next _, .refused message => some (.done (some (.error message)), self)
  | .next _, .ended => some (.done none, self)
  | .next _, .dropped => some (.dropped, self)
  | .ack _, .served => some (.done (.ok ()), self)
  | .ack _, .refused message => some (.done (.error message), self)
  | .ack _, .dropped => some (.dropped, self)
  | .nack _, .served => some (.done (.ok ()), self)
  | .nack _, .refused message => some (.done (.error message), self)
  | .nack _, .dropped => some (.dropped, self)
  | _, _ => none

end Broker

/-- All who use the backplane, with the broker. -/
def rabbitmq : System Broker Session Unit Fate Incident AmqpResp Ended where
  respond w _ e c := w.respond e c
  accept w _ _ := some w
  handle _ := listening
  spawned _ := []
  outside w
    | .publishNodeCompleted runId nodeName success =>
        some (w, [publishing (publishNodeCompleted runId nodeName success) ⟨runId, none, [], []⟩])
    | .publishCancel runId => some (w, [publishing (publishCancel runId) ⟨runId, none, [], []⟩])
    | .subscribe runId => some (w, [subscribing runId ⟨runId, none, [], []⟩])
    | .foreign key payload => some (w.publish key payload, [])
    | .consumerGoes consumer => some (w.leave consumer, [])
    | .queueGoes queue => some ({ w with queues := w.queues.erase queue }, [])

end Jefferies.Backplane

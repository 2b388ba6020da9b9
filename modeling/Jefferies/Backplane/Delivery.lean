import Jefferies.Backplane.Rabbitmq

/-!
# What a subscription over RabbitMQ hears

A queue of one consumer hands over, in order and each once, what was published for its run since it was bound. Of that, a
coordinator misses an event only where it drops `next_event` while the event is being acknowledged.
-/

namespace Jefferies.Backplane

open Coordination Interaction Interact Messaging Transition

/-! ## Queues -/

/-- The messages that a key lets in. -/
def arrived (key : String) (messages : List (String × Json)) : List Json :=
  messages.filterMap fun m => if topicMatches key m.1 then some m.2 else none

/-- What came in since the queue was bound was taken or is still there. -/
def Queue.Flows (q : Queue) (runId : String) (routed : List (String × Json)) : Prop :=
  q.bindings = [] ∧ q.taken ++ q.ready = [] ∨ ∃ n, q.bindings = [(routingKey runId, n)] ∧ n ≤ routed.length ∧
    q.taken ++ q.ready = arrived (routingKey runId) (routed.drop n)

/-- The queue as its broker keeps it. -/
structure Queue.Sound (q : Queue) (name : String) (w : Broker) : Prop where
  flows : ∃ runId, name = queueName runId ∧ q.Flows runId w.routed
  admitted : ∀ tag ∈ q.admitted, tag < w.tags
  live : ∀ tag ∈ q.consumers, tag ∈ q.admitted
  untouched : q.admitted = [] → q.taken = []

def Broker.Sound (w : Broker) : Prop := ∀ name q, w.queues.lookup name = some q → q.Sound name w

/-- No consumer came on and none took anything. -/
def Broker.Idle (w w' : Broker) : Prop :=
  w'.tags = w.tags ∧ ∀ name q', w'.queues.lookup name = some q' →
    q'.admitted = [] ∨ ∃ q, w.queues.lookup name = some q ∧ q'.admitted = q.admitted ∧ q'.taken = q.taken

section

variable {w w' : Broker} {q : Queue} {name runId key : String} {payload : Json} {connection : Nat} {consumer : Consumer}
  {routed : List (String × Json)}

theorem arrived_snoc (key : String) (messages : List (String × Json)) (m : String × Json) :
    arrived key (messages ++ [m]) = arrived key messages ++ if topicMatches key m.1 then [m.2] else [] := by
  rw [arrived, List.filterMap_append]
  congr 1
  by_cases h : topicMatches key m.1 = true
  · simp [h]
  · simp [h]

theorem Queue.Flows.put (h : q.Flows runId routed) (key : String) (payload : Json) :
    (q.put key payload).Flows runId (routed ++ [(key, payload)]) := by
  rcases h with ⟨hbindings, hflow⟩ | ⟨n, hbindings, hn, hflow⟩
  · left
    rw [Queue.put, hbindings]
    exact ⟨hbindings, hflow⟩
  · right
    refine ⟨n, ?_, ?_, ?_⟩
    · unfold Queue.put
      split
      · exact hbindings
      · exact hbindings
    · rw [List.length_append]
      omega
    · rw [List.drop_append_of_le_length hn, arrived_snoc, ← hflow, Queue.put, hbindings]
      by_cases hmatch : topicMatches (routingKey runId) key = true
      · simp [hmatch]
      · simp [hmatch]

theorem Queue.Flows.bind (h : q.Flows runId routed) : (q.bind (routingKey runId) routed.length).Flows runId routed := by
  rcases h with ⟨hbindings, hflow⟩ | ⟨n, hbindings, hn, hflow⟩
  · right
    refine ⟨routed.length, by simp [Queue.bind, hbindings], le_refl _, ?_⟩
    rw [List.drop_length]
    simpa [Queue.bind, hbindings, arrived] using hflow
  · right
    have hsame : q.bind (routingKey runId) routed.length = q := by simp [Queue.bind, hbindings]
    rw [hsame]
    exact ⟨n, hbindings, hn, hflow⟩

theorem queueName_inj {runId runId' : String} (h : queueName runId = queueName runId') : runId = runId' := by
  unfold queueName at h
  exact (String.append_right_inj _).mp h

/-! ## The operations of the broker -/

theorem Broker.Idle.refl (w : Broker) : w.Idle w := ⟨rfl, fun _ q h => .inr ⟨q, h, rfl, rfl⟩⟩

theorem Broker.Sound.empty : Broker.empty.Sound := by
  intro name q h
  rw [Broker.empty, Finmap.lookup_empty] at h
  cases h

/-- One queue is put there, the others are as they were. -/
theorem Broker.Sound.insert {tags : Nat} (h : w.Sound) (htags : w.tags ≤ tags)
    (hq : q.Sound name ⟨w.queues.insert name q, tags, w.routed⟩) : Broker.Sound ⟨w.queues.insert name q, tags, w.routed⟩ := by
  intro name' q' hlookup
  rw [HashMap.lookup_insert_eq_ite] at hlookup
  split at hlookup
  · rename_i heq
    cases hlookup
    exact heq ▸ hq
  · have hold := h _ _ hlookup
    exact ⟨hold.flows, fun tag ht => lt_of_lt_of_le (hold.admitted tag ht) htags, hold.live, hold.untouched⟩

theorem Broker.Idle.insert {q' : Queue} (hq' : q'.admitted = [] ∨ ∃ q, w.queues.lookup name = some q ∧
    q'.admitted = q.admitted ∧ q'.taken = q.taken) : w.Idle { w with queues := w.queues.insert name q' } := by
  refine ⟨rfl, fun name' q'' hlookup => ?_⟩
  rw [HashMap.lookup_insert_eq_ite] at hlookup
  split at hlookup
  · rename_i heq
    cases hlookup
    exact heq ▸ hq'
  · exact .inr ⟨q'', hlookup, rfl, rfl⟩

theorem Broker.Sound.erase (h : w.Sound) (name : String) : Broker.Sound { w with queues := w.queues.erase name } := by
  intro name' q' hlookup
  rw [HashMap.lookup_erase_eq_ite] at hlookup
  split at hlookup
  · cases hlookup
  · have hold := h _ _ hlookup
    exact ⟨hold.flows, hold.admitted, hold.live, hold.untouched⟩

theorem Broker.Idle.erase (w : Broker) (name : String) : w.Idle { w with queues := w.queues.erase name } := by
  refine ⟨rfl, fun name' q' hlookup => ?_⟩
  rw [HashMap.lookup_erase_eq_ite] at hlookup
  split at hlookup
  · cases hlookup
  · exact .inr ⟨q', hlookup, rfl, rfl⟩

theorem Queue.put_keeps (q : Queue) (key : String) (payload : Json) : (q.put key payload).admitted = q.admitted ∧
    (q.put key payload).taken = q.taken ∧ (q.put key payload).consumers = q.consumers := by
  unfold Queue.put
  split
  · exact ⟨rfl, rfl, rfl⟩
  · exact ⟨rfl, rfl, rfl⟩

theorem Queue.bind_keeps (q : Queue) (key : String) (now : Nat) : (q.bind key now).admitted = q.admitted ∧
    (q.bind key now).taken = q.taken ∧ (q.bind key now).consumers = q.consumers := by
  unfold Queue.bind
  split
  · exact ⟨rfl, rfl, rfl⟩
  · exact ⟨rfl, rfl, rfl⟩

theorem Broker.Sound.publish (h : w.Sound) (key : String) (payload : Json) : (w.publish key payload).Sound := by
  intro name q' hlookup
  rw [Broker.publish, HashMap.lookup_mapValues] at hlookup
  obtain ⟨q, hq, rfl⟩ := Option.map_eq_some_iff.mp hlookup
  obtain ⟨⟨runId, hname, hflows⟩, hadmitted, hlive, huntouched⟩ := h name q hq
  obtain ⟨hadmitted', htaken', hconsumers'⟩ := q.put_keeps key payload
  refine ⟨⟨runId, hname, hflows.put key payload⟩, ?_, ?_, ?_⟩
  · rw [hadmitted']
    exact hadmitted
  · rw [hadmitted', hconsumers']
    exact hlive
  · rw [hadmitted', htaken']
    exact huntouched

theorem Broker.Idle.publish (w : Broker) (key : String) (payload : Json) : w.Idle (w.publish key payload) := by
  refine ⟨rfl, fun name q' hlookup => ?_⟩
  rw [Broker.publish, HashMap.lookup_mapValues] at hlookup
  obtain ⟨q, hq, rfl⟩ := Option.map_eq_some_iff.mp hlookup
  obtain ⟨hadmitted', htaken', -⟩ := q.put_keeps key payload
  exact .inr ⟨q, hq, hadmitted', htaken'⟩

theorem Broker.Sound.declare (h : w.Sound) (connection : Nat) (runId : String) :
    (w.declare connection (queueName runId)).2.Sound ∧ w.Idle (w.declare connection (queueName runId)).2 := by
  unfold Broker.declare
  split
  · refine ⟨h.insert le_rfl ⟨⟨runId, rfl, .inl ⟨rfl, rfl⟩⟩, nofun, nofun, fun _ => rfl⟩, .insert (.inl rfl)⟩
  · split
    · exact ⟨h, .refl w⟩
    · exact ⟨h, .refl w⟩

theorem Broker.Sound.bind (h : w.Sound) (connection : Nat) (runId : String) :
    (w.bind connection (queueName runId) (routingKey runId)).2.Sound ∧
      w.Idle (w.bind connection (queueName runId) (routingKey runId)).2 := by
  unfold Broker.bind
  split
  · exact ⟨h, .refl w⟩
  · rename_i q hq
    split
    · obtain ⟨⟨own, hname, hflows⟩, hadmitted, hlive, huntouched⟩ := h _ _ hq
      obtain rfl := queueName_inj hname
      obtain ⟨hadmitted', htaken', hconsumers'⟩ := q.bind_keeps (routingKey runId) w.routed.length
      constructor
      · refine h.insert le_rfl ⟨⟨runId, rfl, hflows.bind⟩, ?_, ?_, ?_⟩
        · rw [hadmitted']
          exact hadmitted
        · rw [hadmitted', hconsumers']
          exact hlive
        · rw [hadmitted', htaken']
          exact huntouched
      · exact .insert (.inr ⟨q, hq, hadmitted', htaken'⟩)
    · exact ⟨h, .refl w⟩

theorem Broker.Sound.leave (h : w.Sound) (consumer : Consumer) : (w.leave consumer).Sound ∧ w.Idle (w.leave consumer) := by
  unfold Broker.leave
  split
  · exact ⟨h, .refl w⟩
  · rename_i q hq
    split
    · split
      · exact ⟨h.erase _, .erase w _⟩
      · have hold := h _ _ hq
        constructor
        · refine h.insert le_rfl ⟨hold.flows, hold.admitted, fun tag ht => ?_, hold.untouched⟩
          exact hold.live tag (List.mem_of_mem_erase ht)
        · exact .insert (.inr ⟨q, hq, rfl, rfl⟩)
    · exact ⟨h, .refl w⟩

/-- A consumer comes on: its tag is new. -/
theorem consume_ok {queue : String} (hc : w.consume connection queue = (.ok consumer, w')) :
    consumer = ⟨w.tags, queue⟩ ∧ ∃ q, w.queues.lookup queue = some q ∧ w' = ⟨w.queues.insert queue
      { q with consumers := q.consumers ++ [w.tags], admitted := q.admitted ++ [w.tags] }, w.tags + 1, w.routed⟩ := by
  unfold Broker.consume at hc
  split at hc
  · cases hc
  · rename_i q hq
    split at hc
    · cases hc
      exact ⟨rfl, q, hq, rfl⟩
    · cases hc

theorem consume_error {queue e : String} (hc : w.consume connection queue = (.error e, w')) : w' = w := by
  unfold Broker.consume at hc
  split at hc
  · cases hc
    rfl
  · split at hc
    · cases hc
    · cases hc
      rfl

theorem deliver_some (hd : w.deliver consumer = some (payload, w')) :
    ∃ q ready, w.queues.lookup consumer.queue = some q ∧ consumer.tag ∈ q.consumers ∧ q.ready = payload :: ready ∧
      w' = { w with queues := w.queues.insert consumer.queue { q with ready := ready, taken := q.taken ++ [payload] } } := by
  unfold Broker.deliver at hd
  split at hd
  · cases hd
  · rename_i q hq
    split at hd
    · rename_i htag
      split at hd
      · cases hd
      · rename_i p ready hready
        cases hd
        exact ⟨q, ready, hq, htag, hready, rfl⟩
    · cases hd

theorem Broker.Sound.consume (h : w.Sound) (runId : String)
    (hc : w.consume connection (queueName runId) = (.ok consumer, w')) : w'.Sound := by
  obtain ⟨rfl, q, hq, rfl⟩ := consume_ok hc
  have hold := h _ _ hq
  refine h.insert (Nat.le_succ _) ⟨hold.flows, fun tag ht => ?_, fun tag ht => ?_, fun hnil => ?_⟩
  · rcases List.mem_append.mp ht with ht | ht
    · exact Nat.lt_succ_of_lt (hold.admitted tag ht)
    · obtain rfl := List.mem_singleton.mp ht
      exact Nat.lt_succ_self _
  · rcases List.mem_append.mp ht with ht | ht
    · exact List.mem_append_left _ (hold.live tag ht)
    · exact List.mem_append_right _ ht
  · simp at hnil

theorem Broker.Sound.deliver (h : w.Sound) (hd : w.deliver consumer = some (payload, w')) : w'.Sound := by
  obtain ⟨q, ready, hq, htag, hready, rfl⟩ := deliver_some hd
  obtain ⟨⟨runId, hname, hflows⟩, hadmitted, hlive, huntouched⟩ := h _ _ hq
  have hsame : q.taken ++ [payload] ++ ready = q.taken ++ q.ready := by simp [hready]
  refine h.insert le_rfl ⟨⟨runId, hname, ?_⟩, hadmitted, hlive, fun hnil => ?_⟩
  · simpa only [Queue.Flows, hsame] using hflows
  · rw [hnil] at hlive
    exact absurd (hlive _ htag) (List.not_mem_nil)

end

/-! ## Those who listen -/

/-- The events that messages hold; one that cannot be read holds none. -/
def events (payloads : List Json) : List BackplaneEvent := payloads.filterMap eventCodec.read

/-- What is known of one who uses the backplane: his subscription, and the messages that were handed to him. -/
structure Account where
  consumer : Option Consumer
  received : List Json

/-- What `next_event` has returned, what it has in hand and what it was dropped with make up what was handed over. -/
structure Account.Accords (γ : Account) (s : Session) (inHand : List Json) : Prop where
  consumer : s.consumer = γ.consumer
  queue : ∀ consumer, γ.consumer = some consumer → consumer.queue = queueName s.runId
  fresh : γ.consumer = none → γ.received = []
  carries : Feed.Carries ⟨s.heard, events inHand⟩ (events γ.received) s.dropped.length

/-- The message that is being acknowledged. -/
def AmqpEffect.inHand : AmqpEffect → List Json
  | .ack delivery => [delivery]
  | .nack delivery => [delivery]
  | _ => []

/-- Who listens takes from his own subscription, and accounts for all that is handed to him. -/
def accounting : Monitor Account Session Unit AmqpResp where
  assume _
    | .answered _ (.basicConsume _ queue) (.ok consumer) => consumer.queue = queue
    | _ => True
  ok γ s e := γ.Accords s e.inHand ∧
    match e with
    | .queueDeclare _ queue => ∃ runId, queue = queueName runId
    | .queueBind _ queue _ key => ∃ runId, queue = queueName runId ∧ key = routingKey runId
    | .basicConsume _ queue => γ.consumer = none ∧ queue = queueName s.runId
    | .next consumer => γ.consumer = some consumer
    | _ => True
  next γ
    | .answered _ (.basicConsume ..) (.ok consumer) => { γ with consumer := some consumer }
    | .answered _ (.next _) (.done (some (.ok delivery))) => { γ with received := γ.received ++ [delivery] }
    | _ => γ

/-- Between two turns nothing is in hand. -/
def accounted (γ : Account) (s : Session) (_ : Option Ended) : Prop := γ.Accords s []

section

variable {γ : Account} {s : Session} {delivery : Json} {event : BackplaneEvent}

theorem accords_blank (runId : String) : Account.Accords ⟨none, []⟩ ⟨runId, none, [], []⟩ [] :=
  ⟨rfl, nofun, fun _ => rfl, .start⟩

theorem events_snoc (payloads : List Json) (delivery : Json) :
    events (payloads ++ [delivery]) = events payloads ++ (eventCodec.read delivery).toList := by
  rw [events, List.filterMap_append]
  rfl

/-- A message is handed over. -/
theorem Account.Accords.receive (h : γ.Accords s []) {consumer : Consumer} (hc : γ.consumer = some consumer)
    (delivery : Json) : Account.Accords { γ with received := γ.received ++ [delivery] } s [delivery] := by
  refine ⟨h.consumer, h.queue, fun hnone => by simp [hc] at hnone, ?_⟩
  have hcarries := h.carries
  rw [events_snoc]
  cases hread : eventCodec.read delivery with
  | none => simpa [events, hread] using hcarries
  | some event => simpa [events, hread] using hcarries.send event

theorem Account.Accords.refuse (h : γ.Accords s [delivery]) (hread : eventCodec.read delivery = none) : γ.Accords s [] := by
  refine ⟨h.consumer, h.queue, h.fresh, ?_⟩
  simpa [events, hread] using h.carries

theorem Account.Accords.hear (h : γ.Accords s [delivery]) (hread : eventCodec.read delivery = some event) :
    γ.Accords { s with heard := s.heard ++ [event] } [] := by
  refine ⟨h.consumer, h.queue, h.fresh, ?_⟩
  have hcarries := h.carries
  simp only [events, List.filterMap_cons, hread, List.filterMap_nil] at hcarries
  exact hcarries.take

theorem Account.Accords.drop (h : γ.Accords s [delivery]) (hread : eventCodec.read delivery = some event) :
    γ.Accords { s with dropped := s.dropped ++ [event] } [] := by
  refine ⟨h.consumer, h.queue, h.fresh, ?_⟩
  have hcarries := h.carries
  simp only [events, List.filterMap_cons, hread, List.filterMap_nil] at hcarries
  rw [List.length_append]
  exact hcarries.lose

/-- Dropped with empty hands. -/
theorem Account.Accords.dropNone (h : γ.Accords s []) :
    γ.Accords { s with dropped := s.dropped ++ (none : Option BackplaneEvent).toList } [] := by
  rw [Option.toList_none, List.append_nil]
  exact h

theorem publishing_accounts (runId : String) (event : BackplaneEvent) :
    accounting.Obeys (publishing (publishEvent runId event) ⟨runId, none, [], []⟩) ⟨none, []⟩ accounted := by
  have hblank := accords_blank runId
  refine ⟨⟨hblank, trivial⟩, fun r _ => ?_⟩
  cases r with
  | error e => exact hblank
  | ok conn =>
      refine ⟨⟨hblank, trivial⟩, fun r _ => ?_⟩
      cases r with
      | error e => exact hblank
      | ok =>
          refine ⟨⟨hblank, trivial⟩, fun r _ => ?_⟩
          cases r with
          | error e => exact hblank
          | ok =>
              refine ⟨⟨hblank, trivial⟩, fun r _ => ?_⟩
              cases r with
              | error e => exact hblank
              | ok => exact hblank

theorem subscribing_accounts (runId : String) :
    accounting.Obeys (subscribing runId ⟨runId, none, [], []⟩) ⟨none, []⟩ accounted := by
  have hblank := accords_blank runId
  refine ⟨⟨hblank, trivial⟩, fun r _ => ?_⟩
  cases r with
  | error e => exact hblank
  | ok conn =>
      refine ⟨⟨hblank, trivial⟩, fun r _ => ?_⟩
      cases r with
      | error e => exact hblank
      | ok =>
          refine ⟨⟨hblank, trivial⟩, fun r _ => ?_⟩
          cases r with
          | error e => exact hblank
          | ok =>
              refine ⟨⟨hblank, runId, rfl⟩, fun r _ => ?_⟩
              cases r with
              | error e => exact hblank
              | ok =>
                  refine ⟨⟨hblank, runId, rfl, rfl⟩, fun r _ => ?_⟩
                  cases r with
                  | error e => exact hblank
                  | ok =>
                      refine ⟨⟨hblank, rfl, rfl⟩, fun r hassume => ?_⟩
                      cases r with
                      | error e => exact hblank
                      | ok consumer =>
                          refine ⟨rfl, fun consumer' heq => ?_, nofun, .start⟩
                          cases heq
                          exact hassume

theorem listening_accounts (h : γ.Accords s []) : accounting.Obeys (listening s) γ accounted := by
  unfold listening
  rw [get_bind]
  cases hc : s.consumer with
  | none => exact h
  | some consumer =>
      have hconsumer : γ.consumer = some consumer := h.consumer ▸ hc
      refine ⟨⟨h, hconsumer⟩, fun r _ => ?_⟩
      match r with
      | .dropped => exact h.dropNone
      | .done none => exact h
      | .done (some (.error e)) => exact h
      | .done (some (.ok delivery)) =>
          have hreceived := h.receive hconsumer delivery
          cases hread : eventCodec.read delivery with
          | some event =>
              simp only [Prog.ret_bind, hread]
              refine ⟨⟨hreceived, trivial⟩, fun r _ => ?_⟩
              cases r with
              | dropped => exact hreceived.drop hread
              | done => exact hreceived.hear hread
          | none =>
              simp only [Prog.ret_bind, hread]
              refine ⟨⟨hreceived, trivial⟩, fun r _ => ?_⟩
              cases r with
              | dropped => exact (hreceived.refuse hread).dropNone
              | done => exact hreceived.refuse hread

end

/-! ## The listeners and the broker -/

abbrev AmqpConfig : Type := Config Broker Session AmqpResp Ended

abbrev AmqpStep : Type := Step AmqpConfig (Act Unit Fate Incident)

/-- Whose the consumers are, by their tags. -/
def noteOwner (owners : List Nat) (t : AmqpStep) : List Nat :=
  match t.label with
  | .answer i _ => if t.after.world.tags = t.before.world.tags then owners else owners ++ [i]
  | _ => owners

/-- The listener's consumer is its own, and what the queue of no other consumer has handed over went to it. -/
def Account.Attached (γ : Account) (owners : List Nat) (w : Broker) (i : Nat) : Prop :=
  ∀ consumer, γ.consumer = some consumer → owners[consumer.tag]? = some i ∧
    ∀ q, w.queues.lookup consumer.queue = some q → q.admitted = [consumer.tag] → q.taken = γ.received

section

variable {γ γ' : Account} {owners : List Nat} {w w' : Broker} {i j : Nat} {consumer : Consumer} {payload : Json}
  {connection : Nat} {queue : String} {e : AmqpEffect} {c : Fate} {a : AmqpResp e × Broker}

theorem Account.Attached.idle (h : γ.Attached owners w i) (hidle : w.Idle w') : γ.Attached owners w' i := by
  intro consumer hc
  obtain ⟨howner, htaken⟩ := h consumer hc
  refine ⟨howner, fun q' hq' hadmitted => ?_⟩
  rcases hidle.2 _ q' hq' with hnil | ⟨q, hq, hadmitted', htaken'⟩
  · rw [hnil] at hadmitted
    cases hadmitted
  · rw [htaken']
    exact htaken q hq (hadmitted' ▸ hadmitted)

theorem Account.Attached.more (h : γ.Attached owners w i) (j : Nat) : γ.Attached (owners ++ [j]) w i := by
  intro consumer hc
  obtain ⟨howner, htaken⟩ := h consumer hc
  refine ⟨?_, htaken⟩
  rw [List.getElem?_append_left (List.getElem?_eq_some_iff.mp howner).1]
  exact howner

/-- Another consumer comes on. -/
theorem Account.Attached.consume (h : γ.Attached owners w i) (hlength : owners.length = w.tags)
    (hc : w.consume connection queue = (.ok consumer, w')) (j : Nat) : γ.Attached (owners ++ [j]) w' i := by
  obtain ⟨-, q, hq, rfl⟩ := consume_ok hc
  intro own hown
  obtain ⟨howner, htaken⟩ := h own hown
  have hlt := (List.getElem?_eq_some_iff.mp howner).1
  refine ⟨(h.more j own hown).1, fun q' hq' hadmitted => ?_⟩
  rw [HashMap.lookup_insert_eq_ite] at hq'
  split at hq'
  · cases hq'
    -- the tag of the new consumer is another one
    have hmem : w.tags ∈ [own.tag] := hadmitted ▸ List.mem_append_right _ (List.mem_singleton_self _)
    have := List.mem_singleton.mp hmem
    omega
  · exact htaken q' hq' hadmitted

/-- The consumer is the listener's own. -/
theorem Account.Attached.consumed (hfresh : γ.received = []) (hsound : w.Sound) (hlength : owners.length = w.tags)
    (hc : w.consume connection queue = (.ok consumer, w')) (i : Nat) :
    Account.Attached { γ with consumer := some consumer } (owners ++ [i]) w' i := by
  obtain ⟨rfl, q, hq, rfl⟩ := consume_ok hc
  intro own hown
  cases hown
  refine ⟨by rw [← hlength, List.getElem?_concat_length], fun q' hq' hadmitted => ?_⟩
  rw [HashMap.lookup_insert_eq_ite, if_pos rfl] at hq'
  cases hq'
  have hnil : q.admitted = [] := by simpa using hadmitted
  rw [hfresh]
  exact (hsound _ _ hq).untouched hnil

/-- Another consumer takes a message. -/
theorem Account.Attached.deliver (h : γ.Attached owners w i) (h' : γ'.Attached owners w j) (hj : j ≠ i) (hsound : w.Sound)
    (hconsumer : γ'.consumer = some consumer) (hd : w.deliver consumer = some (payload, w')) :
    γ.Attached owners w' i := by
  obtain ⟨q, ready, hq, htag, -, rfl⟩ := deliver_some hd
  intro own hown
  obtain ⟨howner, htaken⟩ := h own hown
  refine ⟨howner, fun q' hq' hadmitted => ?_⟩
  rw [HashMap.lookup_insert_eq_ite] at hq'
  split at hq'
  · cases hq'
    -- the queue has one consumer, which would have two owners
    have hmem : consumer.tag ∈ [own.tag] := hadmitted ▸ (hsound _ _ hq).live _ htag
    have howner' := (h' consumer hconsumer).1
    rw [List.mem_singleton.mp hmem, howner] at howner'
    exact absurd (Option.some.inj howner').symm hj
  · exact htaken q' hq' hadmitted

/-- The listener takes a message itself. -/
theorem Account.Attached.take (h : γ.Attached owners w i) (hconsumer : γ.consumer = some consumer)
    (hd : w.deliver consumer = some (payload, w')) :
    Account.Attached { γ with received := γ.received ++ [payload] } owners w' i := by
  obtain ⟨q, ready, hq, htag, -, rfl⟩ := deliver_some hd
  intro own hown
  obtain ⟨howner, htaken⟩ := h own hown
  refine ⟨howner, fun q' hq' hadmitted => ?_⟩
  cases hconsumer.symm.trans hown
  rw [HashMap.lookup_insert_eq_ite, if_pos rfl] at hq'
  cases hq'
  rw [htaken q hq hadmitted]

/-- No consumer comes on by the call, and it takes nothing. -/
def AmqpEffect.Still : AmqpEffect → Prop
  | .basicConsume .. => False
  | .next _ => False
  | _ => True

theorem Broker.Sound.respond (h : w.Sound) (he : e.Still) {s : Session} (hok : accounting.ok γ s e)
    (ha : w.respond e c = some a) : a.2.Sound ∧ w.Idle a.2 := by
  cases e with
  | get | createChannel | exchangeDeclare | ack | nack =>
      have hsame : a.2 = w := by cases c <;> cases ha <;> rfl
      rw [hsame]
      exact ⟨h, .refl w⟩
  | basicPublish connection exchange key payload =>
      have hcases : a.2 = w ∨ a.2 = w.publish key payload := by cases c <;> cases ha <;> simp
      rcases hcases with hsame | hpublished
      · rw [hsame]
        exact ⟨h, .refl w⟩
      · rw [hpublished]
        exact ⟨h.publish key payload, .publish w key payload⟩
  | queueDeclare connection queue =>
      obtain ⟨runId, rfl⟩ := hok.2
      have hcases : a.2 = w ∨ a.2 = (w.declare connection (queueName runId)).2 := by cases c <;> cases ha <;> simp
      rcases hcases with hsame | hdeclared
      · rw [hsame]
        exact ⟨h, .refl w⟩
      · rw [hdeclared]
        exact h.declare connection runId
  | queueBind connection queue exchange key =>
      obtain ⟨runId, rfl, rfl⟩ := hok.2
      have hcases : a.2 = w ∨ a.2 = (w.bind connection (queueName runId) (routingKey runId)).2 := by
        cases c <;> cases ha <;> simp
      rcases hcases with hsame | hbound
      · rw [hsame]
        exact ⟨h, .refl w⟩
      · rw [hbound]
        exact h.bind connection runId
  | basicConsume => exact he.elim
  | next => exact he.elim

/-- Only a consumer that comes on or a message that is handed over is noted. -/
theorem next_still (he : e.Still) (γ : Account) (s : Session) (r : AmqpResp e) :
    accounting.next γ (.answered s e r) = γ ∧ accounting.assume γ (.answered s e r) := by
  cases e with
  | basicConsume => exact he.elim
  | next => exact he.elim
  | _ => exact ⟨rfl, trivial⟩

/-- What an answer leaves as it should be. -/
def Answered (owners : List Nat) (w : Broker) (i : Nat) (γ : Account) (s : Session) (e : AmqpEffect)
    (a : AmqpResp e × Broker) (owners' : List Nat) : Prop :=
  accounting.assume γ (.answered s e a.1) ∧ (owners'.length = a.2.tags ∧ a.2.Sound) ∧
    (accounting.next γ (.answered s e a.1)).Attached owners' a.2 i ∧
    ∀ j (γ' : Account), j ≠ i → γ'.Attached owners w j → γ'.Attached owners' a.2 j

theorem answered_still {s : Session} (hlength : owners.length = w.tags) (hsound : w.Sound) (hrel : γ.Attached owners w i)
    (hok : accounting.ok γ s e) (ha : w.respond e c = some a) (he : e.Still) :
    Answered owners w i γ s e a (if a.2.tags = w.tags then owners else owners ++ [i]) := by
  obtain ⟨hsound', hidle⟩ := hsound.respond he hok ha
  obtain ⟨hnext, hassume⟩ := next_still he γ s a.1
  rw [if_pos hidle.1]
  refine ⟨hassume, ⟨hlength.trans hidle.1.symm, hsound'⟩, ?_, fun _ _ _ h => h.idle hidle⟩
  rw [hnext]
  exact hrel.idle hidle

theorem answered_consume {s : Session} {a : AmqpResp (.basicConsume connection queue) × Broker}
    (hlength : owners.length = w.tags) (hsound : w.Sound) (hrel : γ.Attached owners w i)
    (hok : accounting.ok γ s (.basicConsume connection queue)) (ha : w.respond (.basicConsume connection queue) c = some a) :
    Answered owners w i γ s (.basicConsume connection queue) a (if a.2.tags = w.tags then owners else owners ++ [i]) := by
  obtain ⟨haccords, hnone, rfl⟩ := hok
  have hcases : a = w.consume connection (queueName s.runId) ∨ ∃ message, a = (.error message, w) := by
    cases c <;> cases ha <;> simp
  obtain ⟨r, w'⟩ := a
  cases r with
  | error message =>
      obtain rfl : w' = w := by
        rcases hcases with hconsume | ⟨_, herror⟩
        · exact consume_error hconsume.symm
        · exact (Prod.mk.inj herror).2
      rw [if_pos rfl]
      exact ⟨trivial, ⟨hlength, hsound⟩, hrel, fun _ _ _ h => h⟩
  | ok consumer =>
      have hconsume : w.consume connection (queueName s.runId) = (.ok consumer, w') := by
        rcases hcases with hconsume | ⟨_, herror⟩
        · exact hconsume.symm
        · cases herror
      have hattached := Account.Attached.consumed (haccords.fresh hnone) hsound hlength hconsume i
      have hsound' := hsound.consume s.runId hconsume
      have hothers j γ' (h : Account.Attached γ' owners w j) := h.consume hlength hconsume i
      obtain ⟨rfl, q, -, rfl⟩ := consume_ok hconsume
      rw [if_neg (Nat.succ_ne_self _)]
      exact ⟨rfl, ⟨by simp [hlength], hsound'⟩, hattached, fun j γ' _ h => hothers j γ' h⟩

theorem answered_next {s : Session} {a : AmqpResp (.next consumer) × Broker}
    (hlength : owners.length = w.tags) (hsound : w.Sound) (hrel : γ.Attached owners w i)
    (hok : accounting.ok γ s (.next consumer)) (ha : w.respond (.next consumer) c = some a) :
    Answered owners w i γ s (.next consumer) a (if a.2.tags = w.tags then owners else owners ++ [i]) := by
  have hconsumer : γ.consumer = some consumer := hok.2
  have hcases : (∃ r, w.deliver consumer = some r ∧ a = (.done (some (.ok r.1)), r.2)) ∨
      a.2 = w ∧ accounting.next γ (.answered s (.next consumer) a.1) = γ := by
    cases c with
    | served =>
        obtain ⟨r, hr, rfl⟩ := Option.map_eq_some_iff.mp ha
        exact .inl ⟨r, hr, rfl⟩
    | refused | ended | dropped =>
        cases ha
        exact .inr ⟨rfl, rfl⟩
    | connected | lost => cases ha
  rcases hcases with ⟨⟨payload, w'⟩, hd, rfl⟩ | ⟨hsame, hnext⟩
  · have htags : w'.tags = w.tags := by
      obtain ⟨_, _, _, _, _, rfl⟩ := deliver_some hd
      rfl
    rw [if_pos htags]
    refine ⟨trivial, ⟨hlength.trans htags.symm, hsound.deliver hd⟩, hrel.take hconsumer hd, fun j γ' hj h => ?_⟩
    exact h.deliver hrel (Ne.symm hj) hsound hconsumer hd
  · obtain ⟨r, w'⟩ := a
    obtain rfl : w' = w := hsame
    rw [if_pos rfl]
    refine ⟨trivial, ⟨hlength, hsound⟩, ?_, fun _ _ _ h => h⟩
    rw [hnext]
    exact hrel

end

/-- Every listener has a consumer of its own. -/
def deliveries : Protocol rabbitmq accounting (List Nat) where
  post := accounted
  next := noteOwner
  inv owners σ := owners.length = σ.world.tags ∧ σ.world.Sound
  rel owners w i γ := γ.Attached owners w i
  handlers _ _ _ hpost _ := listening_accounts hpost
  answer := by
    intro owners σ i c s e k a γ ⟨hlength, hsound⟩ hrel _ hok ha
    have hanswered : Answered owners σ.world i γ s e a (if a.2.tags = σ.world.tags then owners else owners ++ [i]) := by
      cases e with
      | basicConsume => exact answered_consume hlength hsound hrel hok ha
      | next => exact answered_next hlength hsound hrel hok ha
      | _ => exact answered_still hlength hsound hrel hok ha trivial
    obtain ⟨hassume, hinv, hself, hothers⟩ := hanswered
    exact ⟨hassume, hinv, hself, fun j γ' hj _ h => hothers j γ' hj h, fun _ _ h => by simp [rabbitmq] at h⟩
  deliver := by
    intro owners σ i input s w γ hinv hrel hpost _ ha
    cases ha
    exact ⟨trivial, hinv, hrel, fun _ _ _ _ h => h⟩
  crash := fun hinv => ⟨hinv, fun _ _ _ _ h => h⟩
  outside := by
    intro owners σ l a ⟨hlength, hsound⟩ ha
    have hnew {p₀ p : Prog Session AmqpResp (Option Ended)} {j : Nat} (hp₀ : accounting.Obeys p₀ ⟨none, []⟩ accounted)
        (hj : [p₀][j]? = some p) (i : Nat) :
        ∃ γ₀, accounting.Obeys p γ₀ accounted ∧ γ₀.Attached owners σ.world i := by
      obtain rfl := List.mem_singleton.mp (List.mem_of_getElem? hj)
      exact ⟨_, hp₀, nofun⟩
    cases l with
    | publishNodeCompleted runId nodeName success =>
        cases ha
        exact ⟨⟨hlength, hsound⟩, fun _ _ _ h => h, fun j p hj => hnew (publishing_accounts runId _) hj _⟩
    | publishCancel runId =>
        cases ha
        exact ⟨⟨hlength, hsound⟩, fun _ _ _ h => h, fun j p hj => hnew (publishing_accounts runId _) hj _⟩
    | subscribe runId =>
        cases ha
        exact ⟨⟨hlength, hsound⟩, fun _ _ _ h => h, fun j p hj => hnew (subscribing_accounts runId) hj _⟩
    | foreign key payload =>
        cases ha
        exact ⟨⟨hlength, hsound.publish key payload⟩, fun _ _ _ h => h.idle (.publish _ key payload),
          fun _ _ h => by simp at h⟩
    | consumerGoes consumer =>
        cases ha
        obtain ⟨hsound', hidle⟩ := hsound.leave consumer
        exact ⟨⟨hlength.trans hidle.1.symm, hsound'⟩, fun _ _ _ h => h.idle hidle, fun _ _ h => by simp at h⟩
    | queueGoes queue =>
        cases ha
        exact ⟨⟨hlength, hsound.erase queue⟩, fun _ _ _ h => h.idle (.erase _ queue), fun _ _ h => by simp at h⟩

/-! ## In every run -/

/-- Nobody uses the backplane yet. -/
def BlankBroker (σ : AmqpConfig) : Prop := σ = ⟨.empty, []⟩

/-- The events that were published for the run, but for as many messages as there were at first. -/
def Broker.published (w : Broker) (runId : String) (since : Nat) : List BackplaneEvent :=
  (w.routed.drop since).filterMap fun m => if m.1 = routingKey runId then eventCodec.read m.2 else none

/-- What the listener has not heard yet: the message in its hand, and those in the queue. -/
def unheard (p : Prog Session AmqpResp (Option Ended)) (q : Queue) : List BackplaneEvent :=
  events ((p.pending.map AmqpEffect.inHand).getD [] ++ q.ready)

section

variable {h : List AmqpStep} {σ : AmqpConfig} {i since : Nat} {p : Prog Session AmqpResp (Option Ended)}
  {consumer : Consumer} {q : Queue} {runId : String}

theorem events_append (l l' : List Json) : events (l ++ l') = events l ++ events l' := List.filterMap_append

theorem deliveries_hold (hr : Run rabbitmq.step BlankBroker h σ) : ∃ owners, deliveries.Holds owners σ := by
  refine ⟨history noteOwner [] h, deliveries.holds ?_ hr⟩
  rintro σ rfl
  exact ⟨⟨rfl, .empty⟩, fun _ _ h => by simp at h⟩

/-- Whether it waits or makes a call, a listener accounts for what was handed to it. -/
theorem accords_of_obeys {γ : Account} (h : accounting.Obeys p γ accounted) :
    γ.Accords p.state ((p.pending.map AmqpEffect.inHand).getD []) := by
  cases p with
  | ret s r => exact h
  | call s e k => exact h.1.1

/-- A key without wildcards lets in the messages under it. -/
theorem events_arrived (hstar : '*' ∉ runId.toList) (hhash : '#' ∉ runId.toList) (messages : List (String × Json)) :
    events (arrived (routingKey runId) messages) =
      messages.filterMap fun m => if m.1 = routingKey runId then eventCodec.read m.2 else none := by
  have hkey (key : String) : topicMatches (routingKey runId) key = true ↔ key = routingKey runId := by
    apply topicMatches_iff
    · simpa [routingKey] using hstar
    · simpa [routingKey] using hhash
  rw [events, arrived, List.filterMap_filterMap]
  congr 1
  funext m
  by_cases hm : m.1 = routingKey runId
  · simp [hm, (hkey _).mpr rfl]
  · simp [hm, hkey]

/-- However publishers and subscribers interleave and whichever of their calls fail, a subscription whose queue has no
other consumer hears, in order and each once, what is published for its run after the queue was bound, and nothing else.
Of these events it misses exactly those that it had in hand when the select loop dropped `next_event`. -/
theorem events_delivered (hr : Run rabbitmq.step BlankBroker h σ) (hp : σ.procs[i]? = some (some p))
    (hc : p.state.consumer = some consumer) (hq : σ.world.queues.lookup consumer.queue = some q)
    (halone : q.admitted = [consumer.tag]) (hbound : (routingKey p.state.runId, since) ∈ q.bindings)
    (hstar : '*' ∉ p.state.runId.toList) (hhash : '#' ∉ p.state.runId.toList) :
    (p.state.heard ++ unheard p q).Sublist (σ.world.published p.state.runId since) ∧
      (p.state.heard ++ unheard p q = σ.world.published p.state.runId since ↔ p.state.dropped = []) ∧
      (p.state.heard ++ unheard p q).length + p.state.dropped.length = (σ.world.published p.state.runId since).length := by
  obtain ⟨owners, ⟨hlength, hsound⟩, hprocs⟩ := deliveries_hold hr
  obtain ⟨γ, hattached, hobeys⟩ := hprocs i p hp
  have haccords := accords_of_obeys hobeys
  have hconsumer := haccords.consumer.symm.trans hc
  obtain ⟨-, htaken⟩ := hattached consumer hconsumer
  obtain ⟨own, hname, hflows⟩ := (hsound _ q hq).flows
  obtain rfl := queueName_inj ((haccords.queue consumer hconsumer).symm.trans hname)
  have hpublished : events (γ.received ++ q.ready) = σ.world.published p.state.runId since := by
    rw [← htaken q hq halone]
    rcases hflows with ⟨hnil, -⟩ | ⟨n, hbindings, -, hflow⟩
    · rw [hnil] at hbound
      cases hbound
    · rw [hbindings] at hbound
      cases List.mem_singleton.mp hbound
      rw [hflow, events_arrived hstar hhash]
      rfl
  -- what is in the queue is before the listener too
  have hcarries : Feed.Carries ⟨p.state.heard, unheard p q⟩ (σ.world.published p.state.runId since)
      p.state.dropped.length := by
    obtain ⟨hsublist, hcount⟩ := haccords.carries
    rw [← hpublished, unheard]
    simp only [events_append] at hsublist hcount ⊢
    refine ⟨?_, ?_⟩
    · rw [← List.append_assoc]
      exact hsublist.append (.refl _)
    · simp only [List.length_append] at hcount ⊢
      omega
  refine ⟨hcarries.sublist, ?_, hcarries.length⟩
  rw [hcarries.whole_iff, List.length_eq_zero_iff]

end

/-- A run is subscribed to and cancelled; among its events there is a message that is none, and another run is cancelled
too. -/
def cancelled : List (Act Unit Fate Incident) :=
  [.outside (.subscribe "7"), .answer 0 (.connected 0), .answer 0 .served, .answer 0 .served, .answer 0 .served,
    .answer 0 .served, .answer 0 .served,
    .outside (.foreign (routingKey "7") .null), .outside (.foreign (routingKey "70") (eventCodec.write .cancel)),
    .outside (.publishCancel "7"), .answer 1 (.connected 1), .answer 1 .served, .answer 1 .served, .answer 1 .served,
    .deliver 0 (), .answer 0 .served, .answer 0 .served, .deliver 0 (), .answer 0 .served, .answer 0 .served]

theorem events_delivered_cancelled : ∃ h σ p q, Run rabbitmq.step BlankBroker h σ ∧ σ.procs[0]? = some (some p) ∧
    p.state = ⟨"7", some ⟨0, queueName "7"⟩, [.cancel], []⟩ ∧ σ.world.queues.lookup (queueName "7") = some q ∧
    p.state.heard ++ unheard p q = σ.world.published "7" 0 := by
  have hblank : BlankBroker ⟨.empty, []⟩ := rfl
  obtain ⟨h, σ, hr, hcheck⟩ := exists_run rabbitmq.step cancelled hblank
    (fun r => decide (r.2.procs[0]?.join.map Prog.state = some (⟨"7", some ⟨0, queueName "7"⟩, [.cancel], []⟩ : Session) ∧
      (r.2.world.queues.lookup (queueName "7")).map (fun q => (q.admitted, q.bindings)) = some ([0], [("run.7", 0)])))
    (by decide +kernel)
  obtain ⟨hstate, hqueue⟩ := of_decide_eq_true hcheck
  obtain ⟨p, hp, hstate⟩ := Option.map_eq_some_iff.mp hstate
  obtain ⟨q, hq, hqueue⟩ := Option.map_eq_some_iff.mp hqueue
  obtain ⟨hadmitted, hbindings⟩ := Prod.mk.inj hqueue
  have hproc : σ.procs[0]? = some (some p) := Option.join_eq_some_iff.mp hp
  have hbound : (routingKey p.state.runId, 0) ∈ q.bindings := by
    rw [hstate, hbindings]
    exact List.mem_singleton_self _
  have hdelivered := @events_delivered h σ 0 0 p ⟨0, queueName "7"⟩ q hr hproc (by rw [hstate]) hq hadmitted hbound
    (by rw [hstate]; decide) (by rw [hstate]; decide)
  refine ⟨h, σ, p, q, hr, hproc, hstate, hq, ?_⟩
  have hwhole := hdelivered.2.1
  rw [hstate] at hwhole ⊢
  exact hwhole.mpr rfl

end Jefferies.Backplane

import Jefferies.Coordination.Effect
import Jefferies.Interaction.Process
import Jefferies.Watching.Classification

/-!
# The pod watcher of a run

The watcher takes up commands and the events of a watch on the run's pods, in any order, and signals what it finds. It
keeps account of the uids it has reported, of the deletions it is to expect and of the nodes that were seen in the
initial list.
-/

namespace Jefferies.Watching

open Coordination Interaction Interact

def rehydrationSentinelUid : String := "__rehydrated__"

structure WatcherState where
  reportedFailureUids : HashMap String (Finset String)
  reportedRunningUids : HashMap String (Finset String)
  expectedDeletions : Finset String
  seedRunning : Finset String
  observedDuringInit : Finset String
  presenceDiffEmitted : Bool

/-- `entry(node_name).or_default().insert(pod_uid)`. -/
def report (uids : HashMap String (Finset String)) (nodeName podUid : String) : Bool × HashMap String (Finset String) :=
  let known := (uids.lookup nodeName).getD ∅
  (podUid ∉ known, uids.insert nodeName (insert podUid known))

namespace WatcherState

def seeded (running : Finset String) : WatcherState where
  reportedFailureUids := ∅
  reportedRunningUids :=
    HashMap.ofList ((HashMap.sortedList running).map fun node => (node, {rehydrationSentinelUid}))
  expectedDeletions := ∅
  seedRunning := running
  observedDuringInit := ∅
  presenceDiffEmitted := false

def shouldEmit (self : WatcherState) : PodSignal → Bool × WatcherState
  | .podRunning nodeName podUid =>
      let (new, uids) := report self.reportedRunningUids nodeName podUid
      (new, { self with reportedRunningUids := uids })
  | .infraFailure nodeName podUid _ =>
      let (new, uids) := report self.reportedFailureUids nodeName podUid
      (new, { self with reportedFailureUids := uids })

def wasRunning (self : WatcherState) (nodeName : String) : Bool :=
  (self.reportedRunningUids.lookup nodeName).any fun uids => uids ≠ ∅

def expectDeletion (self : WatcherState) (nodeName : String) : WatcherState :=
  { self with expectedDeletions := insert nodeName self.expectedDeletions }

def deletionWasExpected (self : WatcherState) (nodeName : String) : Bool := nodeName ∈ self.expectedDeletions

def recordInitObservation (self : WatcherState) (nodeName : String) : WatcherState :=
  if nodeName ∈ self.seedRunning then
    { self with observedDuringInit := insert nodeName self.observedDuringInit }
  else self

/-- The missing nodes, in an order that nothing fixes. -/
def takeMissingAfterInit (self : WatcherState) : Finset String × WatcherState :=
  if self.presenceDiffEmitted then (∅, self)
  else (self.seedRunning \ self.observedDuringInit, { self with presenceDiffEmitted := true })

end WatcherState

/-! ## The watcher -/

inductive WatcherEvent where
  | init
  | initApply (pod : Pod)
  | initDone
  | apply (pod : Pod)
  | delete (pod : Pod)

/-- What the watcher's loop takes up: a command, or what the streams of events give; nothing where they are closed. -/
inductive WatcherInput where
  | command (command : Option WatcherCommand)
  | event (event : Option (Except String WatcherEvent))

inductive WatcherEffect where
  | send (signal : PodSignal)
  | iterate (names : Finset String)

@[reducible] def WatcherResp : WatcherEffect → Type
  | .send _ => Bool
  | .iterate names => Coordination.Ordering names

/-- A computation of the watcher. -/
abbrev Watch (α : Type) : Type := Interact WatcherState WatcherResp α

/-- Make the call `e`. -/
abbrev request (e : WatcherEffect) : Watch (WatcherResp e) := perform e

/-- A signal that cannot be sent is lost. -/
def sendSignal (signal : PodSignal) : Watch Unit := do
  let _ ← request (.send signal)

/-- `if state.should_emit(&signal) { self.send_signal(signal) }`. -/
def emit (signal : PodSignal) : Watch Unit := do
  if ← modifyGet (·.shouldEmit signal) then sendSignal signal
  else return ()

/-- Signal what the pod is classified as. -/
def emitClassified (pod : Pod) : Watch Unit :=
  match classifyPod pod with
  | some signal => emit signal
  | none => return ()

def emitPresenceDiff : Watch Unit := do
  let missing ← modifyGet (·.takeMissingAfterInit)
  (← request (.iterate missing)).1.forM fun nodeName =>
    emit (.infraFailure nodeName rehydrationSentinelUid .podDeletedUnexpectedly)

def handleDelete (pod : Pod) : Watch Unit := do
  match nodeNameFor pod with
  | none => return ()
  | some nodeName => do
      let self ← get
      if self.deletionWasExpected nodeName then return ()
      else if !self.wasRunning nodeName then return ()
      else emit (.infraFailure nodeName (pod.uid.getD "") .podDeletedUnexpectedly)

def handleEvent : WatcherEvent → Watch Unit
  | .initApply pod => do
      if let some nodeName := nodeNameFor pod then modify (·.recordInitObservation nodeName)
      emitClassified pod
  | .apply pod => emitClassified pod
  | .delete pod => handleDelete pod
  | .init => return ()
  | .initDone => emitPresenceDiff

/-- One pass of the watcher's loop. -/
def handleInput : WatcherInput → Watch (Option Unit)
  | .command (some (.expectDeletion nodeName)) => do
      modify (·.expectDeletion nodeName)
      return none
  | .command (some .shutdown) => return some ()
  | .command none => return some ()
  | .event (some (.ok event)) => do
      handleEvent event
      return none
  | .event (some (.error _)) => return none
  | .event none => return some ()

def podWatcher : Process WatcherState WatcherInput WatcherResp Unit where
  start s := .ret s none
  handle := handleInput

/-! ## The signals of a run -/

/-- What is to be known of a run of the watcher: a deletion is to be expected, or a signal is sent. -/
inductive WatcherMoment where
  | expected (nodeName : String)
  | sent (signal : PodSignal)
  deriving DecidableEq

/-- The nodes that are Running when the watcher is started, and what has happened since. -/
structure Watched where
  seed : Finset String
  log : List WatcherMoment

namespace Watched

def record (self : Watched) (moment : WatcherMoment) : Watched := { self with log := self.log ++ [moment] }

def answered (self : Watched) : WatcherEffect → Watched
  | .send signal => self.record (.sent signal)
  | .iterate _ => self

def received (self : Watched) : WatcherInput → Watched
  | .command (some (.expectDeletion nodeName)) => self.record (.expected nodeName)
  | _ => self

end Watched

/-- A watcher with any nodes to start from, any commands and any events. -/
def watching : Surroundings Watched WatcherState WatcherInput WatcherResp where
  starts w s := w.log = [] ∧ s = .seeded w.seed
  answers w _ e _ w' := w' = w.answered e
  delivers w _ input w' := w' = w.received input
  drifts _ _ := False
  restarts _ _ _ := False

end Jefferies.Watching

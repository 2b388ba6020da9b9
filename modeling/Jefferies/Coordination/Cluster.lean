import Jefferies.Coordination.Reaper
import Jefferies.Interaction.System
import Jefferies.RunHistory.Postgres
import Jefferies.StateStore.Redis
import Mathlib.Data.String.Basic

/-!
# Servers that share one store

Any number of servers share the state store, the run history and the dispatcher. A server has tasks that
start runs, a reaper and the coordinators that they spawn; each is a process, and every call of one is a step.
A call may also fail, and then it has been carried out or not.
-/

namespace Jefferies.Coordination

open Pipelines StateStore RunHistory Interaction Transition

/-- What the servers share: the store, the run history, the identifiers that were drawn, and the nodes that
were dispatched, by run. -/
structure World where
  store : RedisStateStore
  history : PostgresRunHistory
  drawn : List String
  dispatched : List (String × NodeInfo)

def World.empty : World := ⟨.empty, .empty, [], []⟩

/-- The node was dispatched for the run. -/
def World.hasDispatched (w : World) (runId nodeName : String) : Bool :=
  w.dispatched.any fun d => d.1 = runId && d.2.name = nodeName

/-- What a process shows of itself: a coordinator its record, another task nothing. -/
inductive Local where
  | task
  | coordinator (c : Coordinator)

inductive Input where
  | event (event : LoopEvent)
  | tick (tick : ReaperTick)

/-- How a call is answered, where the shared state does not decide that. `applied` says whether a call that is
answered with an error was carried out. -/
inductive Reply where
  | done
  | storeFails (error : StateStoreError) (applied : Bool)
  | historyFails (error : RunHistoryError) (applied : Bool)
  | dispatcherFails (error : DispatchError) (applied : Bool)
  | backplaneFails (error : BackplaneError)
  | text (s : String)
  | time (t : DateTime)
  | number (n : Nat)
  | flag (b : Bool)
  | names (l : List String)
  | outcome (o : Option NodeOutcome)
  | outcomes (o : Option (HashMap String ReconcileResult))
  | log (l : Option String)

/-- What happens besides the steps of processes. -/
inductive Outside where
  | launch (runId yaml : String) (statusReporter : Bool) (runContext : RunContext)
  | startReaper
  | expireLease (runId : String)

/-- A process of a server. -/
abbrev Process : Type := Prog Local Resp (Option Unit)

/-- What the servers are given: their services, and how the run history reads a run id. -/
structure Deployment where
  services : Services
  parseRunId : String → Option String

/-! ## How calls are answered -/

namespace World

variable (w : World)

/-- An operation of the store. -/
def storeOp {α : Type} (a : α × RedisStateStore) : Reply → Option (Except StateStoreError α × World)
  | .done => some (.ok a.1, { w with store := a.2 })
  | .storeFails error applied => some (.error error, if applied then { w with store := a.2 } else w)
  | _ => none

/-- An operation of the run history; a statement that fails changes nothing. -/
def historyOp {α : Type} (a : Except RunHistoryError (α × PostgresRunHistory)) :
    Reply → Option (Except RunHistoryError α × World)
  | .done =>
      match a with
      | .ok (x, history) => some (.ok x, { w with history := history })
      | .error error => some (.error error, w)
  | .historyFails error applied =>
      match a, applied with
      | .ok (_, history), true => some (.error error, { w with history := history })
      | _, _ => some (.error error, w)
  | _ => none

/-- An operation of the dispatcher. -/
def dispatcherOp {α : Type} (x : α) (w' : World) : Reply → Option (Except DispatchError α × World)
  | .done => some (.ok x, w')
  | .dispatcherFails error applied => some (.error error, if applied then w' else w)
  | _ => none

/-- The names that a set is iterated by. -/
def ordering (names : Finset String) : Reply → Option (Ordering names)
  | .names l => if h : l.Nodup ∧ l.toFinset = names then some ⟨l, h⟩ else none
  | _ => none

/-- Outcomes are reported only of nodes that were dispatched. -/
def reported (runId : String) (outcomes : HashMap String ReconcileResult) : Bool :=
  decide (∀ n ∈ outcomes.keys, w.hasDispatched runId n)

/-- A statement without a result. -/
def unit (a : Except RunHistoryError PostgresRunHistory) : Except RunHistoryError (Unit × PostgresRunHistory) :=
  a.map fun history => ((), history)

/-- A query. -/
def query {α : Type} (a : Except RunHistoryError α) : Except RunHistoryError (α × PostgresRunHistory) :=
  a.map fun x => (x, w.history)

end World

open World in
/-- The answer to a call and the world after it. -/
def respond (parseRunId : String → Option String) (w : World) : (e : Effect) → Reply → Option (Resp e × World)
  | .newUuid, .text s => if s ∈ w.drawn then none else some (s, { w with drawn := s :: w.drawn })
  | .utcNow, .time t => some (t, w)
  | .systemTimeMs, .number n => some (n, w)
  | .iterate names, reply => (ordering names reply).map fun o => (o, w)
  | .sleep _, .done => some ((), w)
  | .interval _, .done => some ((), w)
  | .spawnTimer .., .number n => some (n, w)
  | .abortTimer _, .done => some ((), w)
  | .spawnCoordinator _, .done => some ((), w)
  | .watcherCommand .., .flag b => some (b, w)
  | .abortWatcher _, .done => some ((), w)
  | .saveRun runId state expected, reply => w.storeOp (w.store.saveRun runId state expected) reply
  | .loadRun runId, reply => w.storeOp (w.store.loadRun runId, w.store) reply
  | .deleteRun runId, reply => w.storeOp ((), w.store.deleteRun runId) reply
  | .tryAcquireLease runId serverId _, reply => w.storeOp (w.store.tryAcquireLease runId serverId) reply
  | .renewLease runId serverId version _, reply =>
      w.storeOp (w.store.renewLease runId serverId version, w.store) reply
  | .releaseLease runId, reply => w.storeOp ((), w.store.releaseLease runId) reply
  | .stateKeys, .storeFails error _ => some (.error error, w)
  | .stateKeys, reply => (ordering w.store.runs.keys reply).map fun o => (.ok o.1, w)
  | .leaseExists runId, reply => w.storeOp (w.store.leaseExists runId, w.store) reply
  | .recordPipelineStarted record, reply =>
      w.historyOp (unit (w.history.recordPipelineStarted parseRunId record)) reply
  | .recordPipelineRun record, reply => w.historyOp (unit (w.history.recordPipelineRun parseRunId record)) reply
  | .finalizePipelineRunStatus runId status completedAt, reply =>
      w.historyOp (w.history.finalizePipelineRunStatus parseRunId runId status completedAt) reply
  | .recordNodeDispatched record, reply =>
      w.historyOp (unit (w.history.recordNodeDispatched parseRunId record)) reply
  | .recordNodeRun record, reply => w.historyOp (unit (w.history.recordNodeRun parseRunId record)) reply
  | .listInProgressRuns, reply => w.historyOp (.ok (w.history.listInProgressRuns, w.history)) reply
  | .getPipelineRun runId, reply => w.historyOp (w.query (w.history.getPipelineRun parseRunId runId)) reply
  | .listNodeRuns runId, reply => w.historyOp (w.query (w.history.listNodeRuns parseRunId runId)) reply
  | .getNodeRun runId nodeName, reply =>
      w.historyOp (w.query (w.history.getNodeRun parseRunId runId nodeName)) reply
  | .dispatch runId _ node _, reply =>
      w.dispatcherOp () { w with dispatched := (runId, node) :: w.dispatched } reply
  | .cancelNode .., reply => w.dispatcherOp () w reply
  | .cleanupRun _, reply => w.dispatcherOp () w reply
  | .getNodeOutcome runId nodeName, .outcome o =>
      if o.isSome && !w.hasDispatched runId nodeName then none else some (.ok o, w)
  | .getNodeOutcome .., .dispatcherFails error _ => some (.error error, w)
  | .readOutcomes runId _, .outcomes o =>
      if o.all (w.reported runId) then some (o, w) else none
  | .getNodeLog .., .log l => some (.ok l, w)
  | .getNodeLog .., .dispatcherFails error _ => some (.error error, w)
  | .nodePodExists .., .flag b => some (.ok b, w)
  | .nodePodExists .., .dispatcherFails error _ => some (.error error, w)
  | .startPodWatcher .., .flag b => some (b, w)
  | .listManagedRunIds, .names l => some (.ok l, w)
  | .listManagedRunIds, .dispatcherFails error _ => some (.error error, w)
  | .subscribeRun _, .done => some (.ok (), w)
  | .subscribeRun _, .backplaneFails error => some (.error error, w)
  | .reporterForRun _, .flag b => some (b, w)
  | .reportCompleted .., .done => some ((), w)
  | _, _ => none

/-! ## Processes -/

/-- The result of a coordinator as that of its process. -/
def ended (summary : Option RunSummary) : Option Unit := summary.map fun _ => ()

def coordinatorProcess (c : Coordinator) : Process := (Coordinator.start c).map .coordinator ended

def taskProcess (task : Task (Option Unit)) : Process := (task ()).map (fun _ => .task) id

namespace Deployment

variable (d : Deployment)

/-- The task that starts the coordinator of a new run. -/
def launchTask (runId : String) (pipeline : Pipeline) (statusReporter : Bool) (runContext : RunContext) :
    Task (Option Unit) := do
  let _ ← startCoordinator d.services.config runId pipeline statusReporter runContext
  return some ()

/-- A process that waits takes an input up; a coordinator its events, and a reaper the ticks of its clocks. -/
def handle : Input → Local → Process
  | .event event, .coordinator c => (Coordinator.handleEvent event c).map .coordinator ended
  | .tick tick, .task => taskProcess (reaperTick d.services tick)
  | _, s => .ret s (some ())

/-- A worker reports the completion of its node; every other event may reach a coordinator at any time. -/
def accept (w : World) : Local → Input → Option World
  | .coordinator c, .event (.backplane (some (.nodeCompleted nodeName _))) =>
      if w.hasDispatched c.runId nodeName then some w else none
  | .coordinator _, .event _ => some w
  | .task, .tick _ => some w
  | _, _ => none

/-- A run is launched under a run id that is drawn for it, with a pipeline read from its document. -/
def outside (w : World) : Outside → Option (World × List Process)
  | .launch runId yaml statusReporter runContext =>
      match d.services.parsePipeline yaml with
      | .error _ => none
      | .ok pipeline =>
          if runId ∈ w.drawn ∨ d.parseRunId runId ≠ some runId then none
          else some ({ w with drawn := runId :: w.drawn },
            [taskProcess (d.launchTask runId pipeline statusReporter
              { runContext with pipelineYaml := yaml })])
  | .startReaper => some (w, [taskProcess (reaperStart d.services)])
  | .expireLease runId => some ({ w with store := w.store.expireLease runId }, [])

/-- The coordinators that a call spawns. -/
def spawned : Effect → List Process
  | .spawnCoordinator c => [coordinatorProcess c]
  | _ => []

def cluster : System World Local Input Reply Outside Resp Unit where
  respond w _ e reply := respond d.parseRunId w e reply
  accept := accept
  handle := d.handle
  spawned := spawned
  outside := d.outside

/-- The servers with their processes. -/
abbrev Servers : Type := Config World Local Resp Unit

/-- A step of the servers. -/
abbrev Event : Type := Step Servers (Act Input Reply Outside)

/-- Nothing has happened yet. -/
def Initial (σ : Servers) : Prop := σ = ⟨.empty, []⟩

/-- A run of the servers: all transitions from the beginning, oldest first, and where they lead. -/
abbrev Runs (h : List Event) (σ : Servers) : Prop := Transition.Run d.cluster.step Initial h σ

theorem exists_runs (ls : List (Act Input Reply Outside)) (check : List Event × Servers → Bool)
    (h : (exec d.cluster.step ls [] ⟨.empty, []⟩).any check = true) :
    ∃ h σ, d.Runs h σ ∧ check (h, σ) = true := by
  have hi : Initial ⟨.empty, []⟩ := rfl
  exact exists_run d.cluster.step ls hi check h

/-- Servers whose users have one pipeline. -/
def buildAndTest : Deployment where
  services := ⟨.default, Pipeline.fromYaml (reads Pipeline.buildAndTestYaml .buildAndTest) .sorted, false⟩
  parseRunId := some

/-- A push starts a run of it. -/
def launch (runId : String) : Act Input Reply Outside :=
  .outside (.launch runId Pipeline.buildAndTestYaml false (.push "acme" "app" Pipeline.buildAndTestYaml))

/-- A server starts a run and waits for its first node. -/
def begun (runId : String) : List (Act Input Reply Outside) :=
  [launch runId, .answer 0 (.text "0b2f8a1c-3f0e-4a53-9d5e-6c1e1f1b7a10"), .answer 0 .done, .answer 0 .done,
    .answer 0 .done, .answer 0 .done, .answer 0 (.flag true), .answer 0 .done, .answer 1 .done, .answer 1 .done,
    .answer 1 .done, .answer 1 .done, .answer 1 (.names ["build"]), .answer 1 .done, .answer 1 .done,
    .answer 1 (.time ⟨0, 0⟩), .answer 1 .done, .answer 1 (.number 0)]

end Deployment

end Jefferies.Coordination

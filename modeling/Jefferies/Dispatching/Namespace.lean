import Jefferies.Dispatching.KubeDispatcher
import Jefferies.Interaction.System

/-!
# The namespace of the runs

Every server has a dispatcher, and all of them work on one namespace: they create the objects of nodes, cancel nodes,
clean runs up and list what there is. Their calls interleave, a call can fail or its answer be lost, and pods come and go
by themselves.
-/

namespace Jefferies.Dispatching

open Pipelines Coordination Interaction Interact

/-! ## The calls -/

structure Selector where
  key : String
  value : String

def Selector.selects (self : Selector) (labels : BTreeMap String) : Bool := labels.lookup self.key == some self.value

structure Pod where
  labels : BTreeMap String
  annotations : BTreeMap String

/-- The calls of a dispatcher: those about one object, and those about all that a selector selects. -/
inductive NamespaceEffect where
  | object (e : KubeEffect)
  | deleteJobs (selector : Selector)
  | deleteConfigMaps (selector : Selector)
  | cleanupSources (runId : String)
  | listPods (selector : Selector)
  | listJobs (selector : Selector)
  | listConfigMaps (selector : Selector)

@[reducible] def NamespaceResp : NamespaceEffect → Type
  | .object e => KubeResp e
  | .deleteJobs _ => Except String Unit
  | .deleteConfigMaps _ => Except String Unit
  | .cleanupSources _ => Except String Unit
  | .listPods _ => Except String (List Pod)
  | .listJobs _ => Except String (List Job)
  | .listConfigMaps _ => Except String (List ConfigMap)

/-- A computation of the dispatcher. -/
abbrev Dispatcher (α : Type) : Type := Interact Unit NamespaceResp α

abbrev ask (e : NamespaceEffect) : Dispatcher (NamespaceResp e) := Interact.perform e

/-- A computation that makes calls about single objects only. -/
def objects {α : Type} (m : Kube α) : Dispatcher α := fun s => (m s).embed .object

/-! ## The dispatcher -/

def managedByLabel : String := "the-conn.com/managed-by"

def runIdLabel : String := "the-conn.com/run-id"

def nodeNameAnnotation : String := "the-conn.com/node-name"

/-- Only a failure at the sources is more than a warning. -/
def cleanupRun (runId : String) : Dispatcher (Except DispatchError Unit) := do
  let _ ← ask (.deleteJobs ⟨runIdLabel, runId⟩)
  let _ ← ask (.deleteConfigMaps ⟨runIdLabel, runId⟩)
  match ← ask (.cleanupSources runId) with
  | .error e => return .error (.source e)
  | .ok () => return .ok ()

def nodePodExists (runId nodeName : String) : Dispatcher (Except DispatchError Bool) := do
  match ← ask (.listPods ⟨runIdLabel, runId⟩) with
  | .error e => return .error (.kube e)
  | .ok pods => return .ok (pods.any fun pod => pod.annotations.lookup nodeNameAnnotation == some nodeName)

/-- The runs that the labels name, added to those found before. -/
def insertRunIds (runIds : Finset String) (labels : List (BTreeMap String)) : Finset String :=
  labels.foldl (fun runIds l =>
    match l.lookup runIdLabel with
    | some runId => insert runId runIds
    | none => runIds) runIds

/-- The set is handed over as a list, in the order of a hash set. -/
def listManagedRunIds : Dispatcher (Except DispatchError (Finset String)) := do
  match ← ask (.listJobs ⟨managedByLabel, "jefferies"⟩) with
  | .error e => return .error (.kube e)
  | .ok jobs => do
      let runIds := insertRunIds ∅ (jobs.map (·.labels))
      match ← ask (.listConfigMaps ⟨managedByLabel, "jefferies"⟩) with
      | .error e => return .error (.kube e)
      | .ok configMaps => return .ok (insertRunIds runIds (configMaps.map (·.labels)))

/-- What a server has its dispatcher do. -/
inductive Operation where
  | dispatch (runId : String) (metadata : RunMetadata) (node : NodeInfo)
  | cancelNode (runId nodeName : String)
  | cleanupRun (runId : String)
  | nodePodExists (runId nodeName : String)
  | listManagedRunIds

/-- The run that the operation is about. -/
def Operation.runId : Operation → Option String
  | .dispatch runId .. => some runId
  | .cancelNode runId _ => some runId
  | .cleanupRun runId => some runId
  | .nodePodExists runId _ => some runId
  | .listManagedRunIds => none

inductive Outcome where
  | done (r : Except DispatchError Unit)
  | found (r : Except DispatchError Bool)
  | listed (r : Except DispatchError (Finset String))

section

variable (stableHash : String → String)

def Operation.carryOut : Operation → Dispatcher Outcome
  | .dispatch runId metadata node => do return .done (← objects (Dispatching.dispatch stableHash runId metadata node))
  | .cancelNode runId nodeName => do return .done (← objects (Dispatching.cancelNode stableHash runId nodeName))
  | .cleanupRun runId => do return .done (← Dispatching.cleanupRun runId)
  | .nodePodExists runId nodeName => do return .found (← Dispatching.nodePodExists runId nodeName)
  | .listManagedRunIds => do return .listed (← Dispatching.listManagedRunIds)

/-- The process of an operation, which shows what it carries out. -/
def Operation.process (op : Operation) : Prog Operation NamespaceResp (Option Outcome) :=
  (op.carryOut stableHash ()).map (fun _ => op) some

end

/-! ## The system -/

/-- The objects of the dispatchers, and the pods of the Jobs. -/
structure Namespace where
  cluster : Cluster
  pods : List Pod

def Namespace.empty : Namespace := ⟨⟨[], [], []⟩, []⟩

/-- How a call fares: it is served, it is refused and nothing happens, or it is served and the answer is lost. A call to
S3 is answered with a URL or with an error. -/
inductive Fortune where
  | served
  | refused (message : String)
  | lost (message : String)
  | url (text : String)

instance (w : Cluster) (name : String) : Decidable (w.hasConfigMap name) :=
  inferInstanceAs (Decidable (∃ cm ∈ w.configMaps, cm.name = name))

instance (w : Cluster) (name : String) : Decidable (w.hasJob name) :=
  inferInstanceAs (Decidable (∃ job ∈ w.jobs, job.name = name))

/-- What a call about one object does to the cluster, where it is served. -/
def Cluster.serve (w : Cluster) : KubeEffect → Cluster
  | .createConfigMap cm =>
      if w.hasConfigMap cm.name then w.refuse cm.name else { w with configMaps := cm :: w.configMaps }
  | .createJob job => if w.hasJob job.name then w.refuse job.name else { w with jobs := job :: w.jobs }
  | .deleteConfigMap name => { w with configMaps := w.configMaps.filter (·.name ≠ name) }
  | .deleteJob name => { w with jobs := w.jobs.filter (·.name ≠ name) }
  | _ => w

/-- What a call does to the namespace, where it is served. -/
def Namespace.serve (w : Namespace) : NamespaceEffect → Namespace
  | .object e => { w with cluster := w.cluster.serve e }
  | .deleteJobs selector =>
      { w with cluster := { w.cluster with jobs := w.cluster.jobs.filter (!selector.selects ·.labels) } }
  | .deleteConfigMaps selector =>
      { w with cluster := { w.cluster with configMaps := w.cluster.configMaps.filter (!selector.selects ·.labels) } }
  | _ => w

/-- The answer to a call about one object, where it is served. -/
def Cluster.reply (w : Cluster) : (e : KubeEffect) → Fortune → Option (KubeResp e)
  | .createConfigMap cm, .served => some (if w.hasConfigMap cm.name then .error (.alreadyExists cm.name) else .ok ())
  | .createJob job, .served => some (if w.hasJob job.name then .error (.alreadyExists job.name) else .ok ())
  | .deleteConfigMap _, .served => some (.ok ())
  | .deleteJob _, .served => some (.ok ())
  | .createConfigMap _, .refused message => some (.error (.other message))
  | .createJob _, .refused message => some (.error (.other message))
  | .deleteConfigMap _, .refused message => some (.error (.other message))
  | .deleteJob _, .refused message => some (.error (.other message))
  | .createConfigMap _, .lost message => some (.error (.other message))
  | .createJob _, .lost message => some (.error (.other message))
  | .deleteConfigMap _, .lost message => some (.error (.other message))
  | .deleteJob _, .lost message => some (.error (.other message))
  | .putStatusUrl .., .url text => some (.ok text)
  | .putLogsUrl .., .url text => some (.ok text)
  | .getSourceUrl _, .url text => some (.ok text)
  | .putStatusUrl .., .refused message => some (.error message)
  | .putLogsUrl .., .refused message => some (.error message)
  | .getSourceUrl _, .refused message => some (.error message)
  | _, _ => none

/-- The answer to a call. -/
def Namespace.reply (w : Namespace) : (e : NamespaceEffect) → Fortune → Option (NamespaceResp e)
  | .object e, c => w.cluster.reply e c
  | .deleteJobs _, .served => some (.ok ())
  | .deleteConfigMaps _, .served => some (.ok ())
  | .cleanupSources _, .served => some (.ok ())
  | .listPods selector, .served => some (.ok (w.pods.filter (selector.selects ·.labels)))
  | .listJobs selector, .served => some (.ok (w.cluster.jobs.filter (selector.selects ·.labels)))
  | .listConfigMaps selector, .served => some (.ok (w.cluster.configMaps.filter (selector.selects ·.labels)))
  | .deleteJobs _, .refused message => some (.error message)
  | .deleteConfigMaps _, .refused message => some (.error message)
  | .cleanupSources _, .refused message => some (.error message)
  | .listPods _, .refused message => some (.error message)
  | .listJobs _, .refused message => some (.error message)
  | .listConfigMaps _, .refused message => some (.error message)
  | .deleteJobs _, .lost message => some (.error message)
  | .deleteConfigMaps _, .lost message => some (.error message)
  | .cleanupSources _, .lost message => some (.error message)
  | .listPods _, .lost message => some (.error message)
  | .listJobs _, .lost message => some (.error message)
  | .listConfigMaps _, .lost message => some (.error message)
  | _, .url _ => none

/-- The namespace behind a call. -/
def Namespace.fare (w : Namespace) (e : NamespaceEffect) : Fortune → Namespace
  | .refused _ => w
  | _ => w.serve e

/-- What happens from outside: a server begins an operation, a Job gets a pod, and an object or a pod goes. -/
inductive Happening where
  | begin (op : Operation)
  | podStarts (job : Job)
  | podGoes (n : Nat)
  | jobGoes (n : Nat)
  | configMapGoes (n : Nat)

def Namespace.happen (w : Namespace) : Happening → Option Namespace
  | .begin _ => some w
  | .podStarts job =>
      if ∃ j ∈ w.cluster.jobs, j.name = job.name ∧ j.labels = job.labels ∧ j.annotations = job.annotations then
        some { w with pods := ⟨job.labels, job.annotations⟩ :: w.pods }
      else none
  | .podGoes n => some { w with pods := w.pods.eraseIdx n }
  | .jobGoes n => some { w with cluster := { w.cluster with jobs := w.cluster.jobs.eraseIdx n } }
  | .configMapGoes n => some { w with cluster := { w.cluster with configMaps := w.cluster.configMaps.eraseIdx n } }

/-- The dispatchers of all servers on one namespace. -/
def dispatchers (stableHash : String → String) :
    System Namespace Operation Empty Fortune Happening NamespaceResp Outcome where
  respond w _ e c := (w.reply e c).map fun r => (r, w.fare e c)
  accept _ _ i := i.elim
  handle i := i.elim
  spawned _ := []
  outside w l := (w.happen l).map fun w' =>
    (w', match l with | .begin op => [op.process stableHash] | _ => [])

end Jefferies.Dispatching

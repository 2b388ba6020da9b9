import Mathlib.Data.List.DropRight
import Jefferies.Coordination.Message
import Jefferies.Interaction.Process

/-!
# Dispatching a node to Kubernetes

A node is dispatched by creating a ConfigMap with its script and a Job that runs it, each under a name made from
the run and the node. Of a Job only its metadata is kept here; what its pod is given decides nothing.
-/

namespace Jefferies.Dispatching

open Pipelines Coordination Interaction Interact Relation

/-! ## Names -/

/-- The characters of a name as Kubernetes takes them. -/
def sanitizeChar (c : Char) : Char := if c.isAlphanum then c.toLower else '-'

/-- `s.trim_matches('-')`. -/
def trimDashes (l : List Char) : List Char := (l.dropWhile (· = '-')).rdropWhile (· = '-')

def sanitizeK8sName (s : String) : String := String.ofList (trimDashes (s.toList.map sanitizeChar))

def runIdPrefixLen : Nat := 8

def nodeNamePrefixLen : Nat := 24

def stableHashLen : Nat := 8

section Names

-- the first bytes of the SHA-256 digest of a text, in hex
variable (stableHash : String → String)

def truncateWithHash (s : String) (prefixLen : Nat) : String :=
  let sanitized := sanitizeK8sName s
  if sanitized.length ≤ prefixLen + 1 + stableHashLen then sanitized
  else String.ofList ((sanitized.toList.take prefixLen).rdropWhile (· = '-')) ++ "-" ++ stableHash s

def shortRunId (runId : String) : String := truncateWithHash stableHash runId runIdPrefixLen

def shortNodeName (nodeName : String) : String := truncateWithHash stableHash nodeName nodeNamePrefixLen

def jobName (runId nodeName : String) : String :=
  "run-" ++ shortRunId stableHash runId ++ "-" ++ shortNodeName stableHash nodeName

def configmapName (runId nodeName : String) : String := jobName stableHash runId nodeName ++ "-script"

end Names

/-! ## Objects -/

def runLabels (runId : String) : BTreeMap String :=
  [("the-conn.com/managed-by", "jefferies"), ("the-conn.com/run-id", runId)]

def nodeAnnotations (nodeName : String) : BTreeMap String := [("the-conn.com/node-name", nodeName)]

structure ConfigMap where
  name : String
  labels : BTreeMap String
  data : BTreeMap String

structure Job where
  name : String
  labels : BTreeMap String
  annotations : BTreeMap String

inductive KubeError where
  | alreadyExists (name : String)
  | other (message : String)

def KubeError.toText : KubeError → String
  | .alreadyExists name => name ++ " already exists"
  | .other message => message

/-- What a dispatch asks of S3 and of Kubernetes. -/
inductive KubeEffect where
  | putStatusUrl (runId nodeName : String)
  | putLogsUrl (runId nodeName : String)
  | getSourceUrl (runId : String)
  | createConfigMap (cm : ConfigMap)
  | createJob (job : Job)
  | deleteConfigMap (name : String)
  | deleteJob (name : String)

@[reducible] def KubeResp : KubeEffect → Type
  | .putStatusUrl .. => Except String String
  | .putLogsUrl .. => Except String String
  | .getSourceUrl _ => Except String String
  | .createConfigMap _ => Except KubeError Unit
  | .createJob _ => Except KubeError Unit
  | .deleteConfigMap _ => Except KubeError Unit
  | .deleteJob _ => Except KubeError Unit

/-- A computation of the dispatcher, which has no state of its own. -/
abbrev Kube (α : Type) : Type := Interact Unit KubeResp α

abbrev kube (e : KubeEffect) : Kube (KubeResp e) := Interact.perform e

/-! ## The dispatcher -/

section Dispatcher

variable (stableHash : String → String)

def buildScript (steps : List String) : String :=
  steps.foldl (fun script step => script ++ step ++ "\n") "#!/bin/bash\nset -euxo pipefail\n"

def buildJob (runId nodeName : String) : Job where
  name := jobName stableHash runId nodeName
  labels := runLabels runId
  annotations := nodeAnnotations nodeName

def createScriptConfigmap (runId cmName script : String) : Kube (Except DispatchError Unit) := do
  match ← kube (.createConfigMap ⟨cmName, runLabels runId, [("script.sh", script)]⟩) with
  | .ok () => return .ok ()
  | .error e => return .error (.kube e.toText)

def createJobOrRollbackConfigmap (job : Job) (cmName : String) : Kube (Except DispatchError Unit) := do
  match ← kube (.createJob job) with
  | .ok () => return .ok ()
  | .error e => do
      let _ ← kube (.deleteConfigMap cmName)
      return .error (.kube e.toText)

/-- The node needs secrets, and the run does not say of which repository. -/
def lacksRepository (metadata : RunMetadata) (node : NodeInfo) : Bool :=
  (!node.envSecrets.isEmpty || !node.fileSecrets.isEmpty) && (metadata.owner.isEmpty || metadata.repo.isEmpty)

/-- A source URL is asked for only where the node checks the source out. -/
def sourceUrl (runId : String) (node : NodeInfo) : Kube (Except String String) :=
  if node.checkout then kube (.getSourceUrl runId) else return .ok ""

/-- The part of `dispatch` that writes. -/
def createObjects (runId : String) (node : NodeInfo) : Kube (Except DispatchError Unit) := do
  let cmName := configmapName stableHash runId node.name
  match ← createScriptConfigmap runId cmName (buildScript node.steps) with
  | .error e => return .error e
  | .ok () => createJobOrRollbackConfigmap (buildJob stableHash runId node.name) cmName

def dispatch (runId : String) (metadata : RunMetadata) (node : NodeInfo) : Kube (Except DispatchError Unit) := do
  if lacksRepository metadata node then
    return .error (.failed "Vault injection requested but owner/repo missing on RunContext")
  else
    match ← kube (.putStatusUrl runId node.name) with
    | .error e => return .error (.source e)
    | .ok _ => do
        match ← kube (.putLogsUrl runId node.name) with
        | .error e => return .error (.source e)
        | .ok _ => do
            match ← sourceUrl runId node with
            | .error e => return .error (.source e)
            | .ok _ => createObjects stableHash runId node

/-- Neither failure is more than a warning. -/
def cancelNode (runId nodeName : String) : Kube (Except DispatchError Unit) := do
  let _ ← kube (.deleteJob (jobName stableHash runId nodeName))
  let _ ← kube (.deleteConfigMap (configmapName stableHash runId nodeName))
  return .ok ()

end Dispatcher

/-! ## The cluster -/

/-- The ConfigMaps and Jobs of the namespace; `refused` are the names under which something was not created
because it is there. -/
structure Cluster where
  configMaps : List ConfigMap
  jobs : List Job
  refused : List String

namespace Cluster

variable (stableHash : String → String)

def hasConfigMap (self : Cluster) (name : String) : Prop := ∃ cm ∈ self.configMaps, cm.name = name

def hasJob (self : Cluster) (name : String) : Prop := ∃ job ∈ self.jobs, job.name = name

def refuse (self : Cluster) (name : String) : Cluster := { self with refused := name :: self.refused }

/-- Creating an object whose name exists is an error and changes nothing. -/
def Answers (self : Cluster) : (e : KubeEffect) → KubeResp e → Cluster → Prop
  | .createConfigMap cm, r, next =>
      (self.hasConfigMap cm.name ∧ r = .error (.alreadyExists cm.name) ∧ next = self.refuse cm.name) ∨
      (¬self.hasConfigMap cm.name ∧ r = .ok () ∧ next = { self with configMaps := cm :: self.configMaps }) ∨
      ∃ message, r = .error (.other message) ∧ next = self
  | .createJob job, r, next =>
      (self.hasJob job.name ∧ r = .error (.alreadyExists job.name) ∧ next = self.refuse job.name) ∨
      (¬self.hasJob job.name ∧ r = .ok () ∧ next = { self with jobs := job :: self.jobs }) ∨
      ∃ message, r = .error (.other message) ∧ next = self
  | .deleteConfigMap name, r, next =>
      (r = .ok () ∧ next = { self with configMaps := self.configMaps.filter (·.name ≠ name) }) ∨
      ∃ e, r = .error e ∧ next = self
  | .deleteJob name, r, next =>
      (r = .ok () ∧ next = { self with jobs := self.jobs.filter (·.name ≠ name) }) ∨
      ∃ e, r = .error e ∧ next = self
  | _, _, next => next = self

/-- The node's ConfigMap or its Job is there. -/
def HasObject (self : Cluster) (runId nodeName : String) : Prop :=
  self.hasConfigMap (configmapName stableHash runId nodeName) ∨ self.hasJob (jobName stableHash runId nodeName)

/-- Something of the node was not created because it is there. -/
def Refused (self : Cluster) (runId nodeName : String) : Prop :=
  configmapName stableHash runId nodeName ∈ self.refused ∨ jobName stableHash runId nodeName ∈ self.refused

end Cluster

/-- The cluster, which answers a dispatcher. -/
def kubernetes : Surroundings Cluster Unit Empty KubeResp where
  starts _ _ := True
  answers w _ e r w' := w.Answers e r w'
  delivers _ _ _ _ := False
  drifts _ _ := False
  restarts _ _ _ := False

/-- A dispatch as a process. -/
def dispatching (stableHash : String → String) (runId : String) (metadata : RunMetadata) (node : NodeInfo) :
    Process Unit Empty KubeResp (Except DispatchError Unit) where
  start := (dispatch stableHash runId metadata node >>= fun r => pure (some r) : Kube _)
  handle i := i.elim

/-- A cancellation as a process. -/
def cancelling (stableHash : String → String) (runId nodeName : String) :
    Process Unit Empty KubeResp (Except DispatchError Unit) where
  start := (cancelNode stableHash runId nodeName >>= fun r => pure (some r) : Kube _)
  handle i := i.elim

/-- The cancellation of a node turns the cluster from `w` to `w'`, so far or up to its end. -/
def Cancels (stableHash : String → String) (runId nodeName : String) (w w' : Cluster) : Prop :=
  ∃ p, ReflTransGen (kubernetes.Step (cancelling stableHash runId nodeName))
    (w, (cancelling stableHash runId nodeName).start ()) (w', p)

section Dispatches

variable (stableHash : String → String) (runId : String) (metadata : RunMetadata) (node : NodeInfo)

/-- The dispatch turns the cluster from `w` to `w'`, so far or up to its end. -/
def Reached (w w' : Cluster) (p : Prog Unit KubeResp (Option (Except DispatchError Unit))) : Prop :=
  ReflTransGen (kubernetes.Step (dispatching stableHash runId metadata node))
    (w, (dispatching stableHash runId metadata node).start ()) (w', p)

/-- The dispatch answers `r` and leaves the cluster as `w'`. -/
def Dispatches (w : Cluster) (r : Except DispatchError Unit) (w' : Cluster) : Prop :=
  Reached stableHash runId metadata node w w' (.ret () (some r))

variable {stableHash runId metadata node}

/-- A dispatch that lacks the repository leaves the cluster as it is. -/
theorem Reached.unchanged {w w' : Cluster} {p : Prog Unit KubeResp (Option (Except DispatchError Unit))}
    (h : Reached stableHash runId metadata node w w' p) (hl : lacksRepository metadata node = true) : w' = w := by
  have hstart : (dispatching stableHash runId metadata node).start () =
      .ret () (some (.error (.failed "Vault injection requested but owner/repo missing on RunContext"))) := by
    show (dispatch stableHash runId metadata node >>= _ : Kube _) () = _
    rw [dispatch, if_pos hl]
    rfl
  rw [Reached, hstart] at h
  rcases ReflTransGen.cases_head h with he | ⟨_, hs, _⟩
  · exact (Prod.mk.inj he).1.symm
  · cases hs with
    | drift hd => exact hd.elim
    | restart hr => exact hr.elim

/-- The ConfigMap is there already, or it is created and the Job is there already. -/
theorem createObjects_refused {w : Cluster} (h : w.HasObject stableHash runId node.name) :
    kubernetes.Leads (dispatching stableHash runId metadata node) w
      ((createObjects stableHash runId node >>= fun r => pure (some r) : Kube _) ()) fun w' p =>
        (∃ message, p = .ret () (some (.error (.kube message)))) ∧ w'.Refused stableHash runId node.name := by
  by_cases hcm : w.hasConfigMap (configmapName stableHash runId node.name)
  · refine .call (.error (.alreadyExists _)) (w.refuse _) (.inl ⟨hcm, rfl, rfl⟩) ?_
    exact .here ⟨⟨_, rfl⟩, .inl List.mem_cons_self⟩
  · have hjob := h.resolve_left hcm
    refine .call (.ok ()) _ (.inr (.inl ⟨hcm, rfl, rfl⟩)) ?_
    refine .call (.error (.alreadyExists _)) _ (.inl ⟨hjob, rfl, rfl⟩) ?_
    refine .call (.ok ()) _ (.inl ⟨rfl, rfl⟩) ?_
    exact .here ⟨⟨_, rfl⟩, .inr List.mem_cons_self⟩

/-- Where an object of the node is there, the dispatch can fail because of it. -/
theorem dispatches_refused {w : Cluster} (hl : lacksRepository metadata node = false)
    (h : w.HasObject stableHash runId node.name) :
    ∃ message w', Dispatches stableHash runId metadata node w (.error (.kube message)) w' ∧
      w'.Refused stableHash runId node.name := by
  let pr := dispatching stableHash runId metadata node
  have hlead : kubernetes.Leads pr w (pr.start ()) fun w' p =>
      (∃ message, p = .ret () (some (.error (.kube message)))) ∧ w'.Refused stableHash runId node.name := by
    show kubernetes.Leads pr w ((dispatch stableHash runId metadata node >>= fun r => pure (some r) : Kube _) ()) _
    rw [dispatch, if_neg (by simp [hl])]
    refine .call (.ok "") w rfl ?_
    refine .call (.ok "") w rfl ?_
    by_cases hcheckout : node.checkout = true
    · simp only [sourceUrl, hcheckout, ↓reduceIte]
      exact .call (.ok "") w rfl (createObjects_refused h)
    · simp only [sourceUrl, hcheckout]
      exact createObjects_refused h
  obtain ⟨w', p, hr, ⟨message, rfl⟩, href⟩ := hlead
  exact ⟨message, w', hr, href⟩

end Dispatches

end Jefferies.Dispatching

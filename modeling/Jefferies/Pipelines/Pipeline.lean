import Jefferies.Collections.HashMap
import Jefferies.Collections.Text

/-!
# Pipelines

The pipeline definition and the information about its nodes. YAML is read by a deserializer outside this
repository, which stands here as a function from text to a pipeline.
-/

namespace Jefferies.Pipelines

inductive PipelineError where
  | yamlParseError (message : String)
  | unknownDependency (node dependency : String)
  | selfDependency (node : String)
  | emptySteps (node : String)
  | invalidQuantity (node field value : String)
  | invalidVolume (node name reason : String)
  | invalidSecret (node name reason : String)
  deriving DecidableEq, Repr

structure Refs where
  branches : Option (List String)
  tags : Option (List String)
  deriving DecidableEq

structure PipelineTriggers where
  push : Option Refs
  pullRequest : Option Refs
  schedule : Option String
  deriving DecidableEq

structure NamedStep where
  name : String
  run : String
  deriving DecidableEq

inductive PipelineStep where
  | inline (command : String)
  | named (step : NamedStep)
  deriving DecidableEq

inductive FileSecret where
  | default (name : String)
  | custom (name path : String)
  deriving DecidableEq

def FileSecret.name : FileSecret → String
  | .default name => name
  | .custom name _ => name

def FileSecret.path : FileSecret → Option String
  | .default _ => none
  | .custom _ path => some path

structure Secrets where
  env : List String
  files : List FileSecret
  deriving DecidableEq

structure PipelineNode where
  name : String
  image : Option String
  timeoutSecs : Option Nat
  startupTimeoutSecs : Option Nat
  checkout : Option Bool
  after : List String
  env : HashMap String String
  secrets : Secrets
  steps : List PipelineStep
  privileged : Bool
  cacheSize : Option String
  cpu : Option String
  memory : Option String
  volumes : HashMap String String

structure Pipeline where
  name : String
  timeoutSecs : Option Nat
  failFast : Option Bool
  on : Option PipelineTriggers
  env : HashMap String String
  secrets : Secrets
  nodes : List PipelineNode

/-- A node with nothing but its name, its dependencies and one step. -/
def PipelineNode.plain (name : String) (after : List String) : PipelineNode where
  name := name
  image := none
  timeoutSecs := none
  startupTimeoutSecs := none
  checkout := none
  after := after
  env := ∅
  secrets := ⟨[], []⟩
  steps := [.inline "make"]
  privileged := false
  cacheSize := none
  cpu := none
  memory := none
  volumes := ∅

/-- A pipeline with nothing but its name and its nodes. -/
def Pipeline.plain (name : String) (nodes : List PipelineNode) : Pipeline where
  name := name
  timeoutSecs := none
  failFast := none
  on := none
  env := ∅
  secrets := ⟨[], []⟩
  nodes := nodes

/-- Two nodes, the second of which waits for the first, without fail-fast. -/
def Pipeline.buildAndTest : Pipeline :=
  { Pipeline.plain "ci" [.plain "build" [], .plain "test" ["build"]] with failFast := some false }

/-- The document that declares them. -/
def Pipeline.buildAndTestYaml : String :=
  "name: ci\nfail_fast: false\nnodes:\n- name: build\n  steps: [make]\n- name: test\n  after: [build]\n  steps: [make]\n"

structure FileSecretSpec where
  name : String
  path : Option String
  deriving DecidableEq

structure NodeInfo where
  name : String
  image : String
  steps : List String
  dependencies : List String
  timeoutSecs : Option Nat
  startupTimeoutSecs : Option Nat
  checkout : Bool
  env : HashMap String String
  envSecrets : List String
  fileSecrets : List FileSecretSpec
  privileged : Bool
  cacheSize : Option String
  cpu : Option String
  memory : Option String
  volumes : HashMap String String

/-! ## Node information -/

def stepCommand : PipelineStep → String
  | .inline cmd => cmd
  | .named ns => ns.run

def mergeEnvSecrets (pipelineEnv nodeEnv : List String) : List String :=
  (pipelineEnv ++ nodeEnv).foldl (fun set name => BTreeSet.insert name set) []

def mergeFileSecrets (pipelineFiles nodeFiles : List FileSecret) : List FileSecretSpec :=
  ((pipelineFiles ++ nodeFiles).foldl
    (fun byName file => BTreeMap.insert file.name (⟨file.name, file.path⟩ : FileSecretSpec) byName)
    []).map Prod.snd

namespace Pipeline

def pipelineTimeoutSecs (self : Pipeline) : Option Nat := self.timeoutSecs

def failFastOverride (self : Pipeline) : Option Bool := self.failFast

/-- The information of one declared node: the node's own entries win over the pipeline's. -/
def infoOf (self : Pipeline) (n : PipelineNode) : NodeInfo where
  name := n.name
  image := n.image.getD ""
  steps := n.steps.map stepCommand
  dependencies := n.after
  timeoutSecs := n.timeoutSecs
  startupTimeoutSecs := n.startupTimeoutSecs
  checkout := n.checkout.getD false
  env := n.env ∪ self.env
  envSecrets := mergeEnvSecrets self.secrets.env n.secrets.env
  fileSecrets := mergeFileSecrets self.secrets.files n.secrets.files
  privileged := n.privileged
  cacheSize := n.cacheSize
  cpu := n.cpu
  memory := n.memory
  volumes := n.volumes

def nodeInfo (self : Pipeline) : List NodeInfo := self.nodes.map self.infoOf

/-! ## Triggers -/

def refFilterMatches (allowed : List String) (candidate : String) : Bool := allowed.isEmpty || allowed.contains candidate

def refsMatchPush (refs : Refs) (branch tag : Option String) : Bool :=
  if refs.branches.isNone && refs.tags.isNone then true
  else
    match branch, tag with
    | some b, _ => refs.branches.any fun allowed => refFilterMatches allowed b
    | none, some t => refs.tags.any fun allowed => refFilterMatches allowed t
    | none, none => false

def refsMatchBranchFilter (filter : Option (List String)) (branch : String) : Bool :=
  filter.all fun allowed => refFilterMatches allowed branch

def triggeredByPush (self : Pipeline) (branch tag : Option String) : Bool :=
  (self.on.bind (·.push)).any fun refs => refsMatchPush refs branch tag

def triggeredByPullRequest (self : Pipeline) (branch : String) : Bool :=
  (self.on.bind (·.pullRequest)).any fun refs => refsMatchBranchFilter refs.branches branch

@[simp] theorem infoOf_name (self : Pipeline) (n : PipelineNode) : (self.infoOf n).name = n.name := rfl

@[simp] theorem infoOf_dependencies (self : Pipeline) (n : PipelineNode) :
    (self.infoOf n).dependencies = n.after := rfl

theorem nodeInfo_names (self : Pipeline) :
    self.nodeInfo.map NodeInfo.name = self.nodes.map PipelineNode.name := by
  simp only [nodeInfo, List.map_map, Function.comp_def, infoOf_name]

end Pipeline

end Jefferies.Pipelines

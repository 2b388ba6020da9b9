import Jefferies.Collections.Result
import Jefferies.Pipelines.Pipeline

/-!
# Reading and validating a pipeline

`Pipeline.fromYaml` deserializes and then runs the validators in order; the first violation is the error.
-/

namespace Jefferies.Pipelines

/-! ## Dependencies -/

/-- The inner loop of `validateDependencies`: the `after` entries of one node. -/
def validateAfter (nodeNames : List String) (node : PipelineNode) : List String → Except PipelineError Unit
  | [] => .ok ()
  | dep :: rest =>
      if dep = node.name then .error (.selfDependency node.name)
      else if dep ∉ nodeNames then .error (.unknownDependency node.name dep)
      else validateAfter nodeNames node rest

def validateDependencies (pipeline : Pipeline) : Except PipelineError Unit :=
  let nodeNames := pipeline.nodes.map PipelineNode.name
  pipeline.nodes.forM fun node => validateAfter nodeNames node node.after

def validateStepsPresent (pipeline : Pipeline) : Except PipelineError Unit :=
  pipeline.nodes.forM fun node =>
    if node.steps.isEmpty then .error (.emptySteps node.name) else .ok ()

/-! ## Quantities

The scanner's index `i` is kept as the bytes from `i` on. -/

/-- The first loop: digits and at most one dot. Returns `saw_digit` and the bytes that are left. -/
def scanNumber : List UInt8 → Bool → Bool → Bool × List UInt8
  | [], sawDigit, _ => (sawDigit, [])
  | b :: rest, sawDigit, sawDot =>
      if isAsciiDigit b then scanNumber rest true sawDot
      else if b = 46 && !sawDot then scanNumber rest sawDigit true
      else (sawDigit, b :: rest)

def isSign (b : UInt8) : Bool := b = 43 || b = 45

/-- The bytes behind the exponent letter: an optional sign and at least one digit. -/
def scanExponent : List UInt8 → Bool
  | [] => false
  | b :: rest =>
      let digits := if isSign b then rest else b :: rest
      digits.all isAsciiDigit && !digits.isEmpty

/-- `i + 1 < bytes.len()` and the byte there starts an exponent. -/
def startsExponent : List UInt8 → Bool
  | [] => false
  | b :: _ => isAsciiDigit b || isSign b

def isValidSuffix : List UInt8 → Bool
  | [] => true
  | b :: rest =>
      if (b = 101 || b = 69) && startsExponent rest then scanExponent rest
      else if b = 110 || b = 117 || b = 109 || b = 107 then rest.isEmpty
      else if b = 75 || b = 77 || b = 71 || b = 84 || b = 80 || b = 69 then
        match rest with
        | 105 :: rest => rest.isEmpty
        | rest => rest.isEmpty
      else false

def isValidQuantity (s : String) : Bool :=
  match bytes s with
  | [] => false
  | b :: rest =>
      let (sawDigit, rest) := scanNumber (if isSign b then rest else b :: rest) false false
      sawDigit && isValidSuffix rest

def validateQuantities (pipeline : Pipeline) : Except PipelineError Unit :=
  pipeline.nodes.forM fun node =>
    [("cpu", node.cpu), ("memory", node.memory), ("cache_size", node.cacheSize)].forM
      fun (field, value) =>
        match value with
        | some v => if isValidQuantity v then .ok () else .error (.invalidQuantity node.name field v)
        | none => .ok ()

/-! ## Volumes -/

def isValidDns1123Label (s : String) : Bool :=
  let isAlnum := fun b => isAsciiLowercase b || isAsciiDigit b
  match bytes s with
  | [] => false
  | b :: rest =>
      decide ((b :: rest).length ≤ 63) && isAlnum b && isAlnum (rest.getLastD b) &&
        (b :: rest).all fun b => isAlnum b || b = 45

def reservedVolumeNames : List String := ["tube-bin", "workspace", "user-script", "cache"]

def reservedMountPaths : List String := ["/shared", "/workspace", "/etc/conn", "/tmp/cache"]

def isReservedPath (candidate reserved : String) : Bool :=
  candidate = reserved || startsWith candidate (reserved ++ "/") || startsWith reserved (candidate ++ "/")

/-- The loop over one node's volumes; `seenPaths` are the mount paths met so far. -/
def validateNodeVolumes (node : String) (seenPaths : List String) :
    List (String × String) → Except PipelineError Unit
  | [] => .ok ()
  | (name, mountPath) :: rest =>
      let invalid := fun reason => Except.error (.invalidVolume node name reason)
      if !isValidDns1123Label name then
        invalid "name must be a valid DNS-1123 label (lowercase alphanumeric and '-', 1-63 chars, must start and end with an alphanumeric character)"
      else if name ∈ reservedVolumeNames then
        invalid ("name '" ++ name ++ "' is reserved for internal use")
      else if !startsWith mountPath "/" then
        invalid ("mount path '" ++ mountPath ++ "' must be absolute")
      else if reservedMountPaths.any (isReservedPath mountPath) then
        invalid ("mount path '" ++ mountPath ++ "' overlaps a reserved mount")
      else if mountPath ∈ seenPaths then
        invalid ("mount path '" ++ mountPath ++ "' is used by another volume on this node")
      else validateNodeVolumes node (mountPath :: seenPaths) rest

def validateVolumes (order : HashMap.IterOrder String String) (pipeline : Pipeline) :
    Except PipelineError Unit :=
  pipeline.nodes.forM fun node => validateNodeVolumes node.name [] (order.entries node.volumes)

/-! ## Secrets -/

def maxSecretNameLen : Nat := 30

def isValidEnvVarName (s : String) : Bool :=
  match bytes s with
  | [] => false
  | b :: rest =>
      (isAsciiAlphabetic b || b = 95) && rest.all fun b => isAsciiAlphanumeric b || b = 95

def secretNameViolation (name : String) : Option String :=
  if (bytes name).isEmpty then some "name must not be empty"
  else if (bytes name).length > maxSecretNameLen then some "name must be at most 30 characters"
  else if !isValidEnvVarName name then
    some "name must match POSIX env-var pattern: [A-Za-z_][A-Za-z0-9_]*"
  else none

def fileSecretPathViolation (path : String) : Option String :=
  if !startsWith path "/" then some ("path '" ++ path ++ "' must be absolute")
  else if endsWith path "/" then some ("path '" ++ path ++ "' must not end with '/'")
  else if containsText path "//" then some ("path '" ++ path ++ "' must not contain '//'")
  else if (splitText path '/').any (· = "..") then
    some ("path '" ++ path ++ "' must not contain '..' segments")
  else none

/-- Fails with the violation, if there is one. -/
def rejectSecret (node name : String) : Option String → Except PipelineError Unit
  | some reason => .error (.invalidSecret node name reason)
  | none => .ok ()

def validateSecrets (pipeline : Pipeline) : Except PipelineError Unit :=
  pipeline.nodes.forM fun node => do
    (mergeEnvSecrets pipeline.secrets.env node.secrets.env).forM fun name =>
      rejectSecret node.name name (secretNameViolation name)
    (mergeFileSecrets pipeline.secrets.files node.secrets.files).forM fun spec => do
      rejectSecret node.name spec.name (secretNameViolation spec.name)
      rejectSecret node.name spec.name (spec.path.bind fileSecretPathViolation)

/-! ## The whole document -/

/-- `serde` is the YAML deserializer, which answers with a pipeline or with the text of its error. -/
def Pipeline.fromYaml (serde : String → Except String Pipeline)
    (order : HashMap.IterOrder String String) (yaml : String) : Except PipelineError Pipeline :=
  match serde yaml with
  | .ok pipeline => do
      validateDependencies pipeline
      validateStepsPresent pipeline
      validateQuantities pipeline
      validateVolumes order pipeline
      validateSecrets pipeline
      return pipeline
  | .error e => .error (.yamlParseError e)

/-- A deserializer as it behaves on one document. -/
def reads (document : String) (pipeline : Pipeline) (yaml : String) : Except String Pipeline :=
  if yaml = document then .ok pipeline else .error "unexpected document"

/-! ## What acceptance says -/

theorem validateAfter_ok {nodeNames : List String} {node : PipelineNode} {deps : List String}
    (h : validateAfter nodeNames node deps = .ok ()) : ∀ dep ∈ deps, dep ≠ node.name ∧ dep ∈ nodeNames := by
  induction deps with
  | nil => simp
  | cons dep rest ih =>
      simp only [validateAfter] at h
      split at h
      · cases h
      · split at h
        · cases h
        · rename_i hself hknown
          intro d hd
          rcases List.mem_cons.mp hd with rfl | hd
          · exact ⟨hself, not_not.mp hknown⟩
          · exact ih h d hd

variable {serde : String → Except String Pipeline} {order : HashMap.IterOrder String String}
  {yaml : String} {pipeline : Pipeline}

/-- An accepted document is one that the deserializer reads and every validator accepts. -/
theorem fromYaml_ok (h : Pipeline.fromYaml serde order yaml = .ok pipeline) :
    serde yaml = .ok pipeline ∧ validateDependencies pipeline = .ok () ∧
      validateStepsPresent pipeline = .ok () ∧ validateQuantities pipeline = .ok () ∧
      validateVolumes order pipeline = .ok () ∧ validateSecrets pipeline = .ok () := by
  unfold Pipeline.fromYaml at h
  cases hs : serde yaml with
  | error e => rw [hs] at h; cases h
  | ok p =>
      rw [hs] at h
      obtain ⟨_, hd, h⟩ := except_bind_ok h
      obtain ⟨_, hp, h⟩ := except_bind_ok h
      obtain ⟨_, hq, h⟩ := except_bind_ok h
      obtain ⟨_, hv, h⟩ := except_bind_ok h
      obtain ⟨_, hsec, h⟩ := except_bind_ok h
      cases h
      exact ⟨rfl, hd, hp, hq, hv, hsec⟩

/-- Every dependency of an accepted pipeline is the name of another node. -/
theorem dependencies_known (h : Pipeline.fromYaml serde order yaml = .ok pipeline) :
    ∀ node ∈ pipeline.nodes, ∀ dep ∈ node.after,
      dep ≠ node.name ∧ dep ∈ pipeline.nodes.map PipelineNode.name :=
  fun node hnode => validateAfter_ok (forM_ok (fromYaml_ok h).2.1 node hnode)

end Jefferies.Pipelines

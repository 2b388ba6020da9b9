import Jefferies.Collections.Json
import Jefferies.StateStore.RunState

/-!
# The stored state as a document

The JSON value of a stored state, with its pipeline. Every type is written and read as its attributes say:
which fields are left out, what an absent field stands for, and how the kinds of a step or of a secret are told
apart. The codecs carry that reading gives back what was written.
-/

namespace Jefferies.StateStore

open Pipelines Json

/-! ## Pipelines -/

/-- `deserialize_ref_filter`: a filter that is there counts, even as `null`. -/
def deserializeRefFilter : Option Json → Option (Option (List String))
  | none => some none
  | some j => ((Codec.list .text).readOption (some j)).map fun l => some (l.getD [])

theorem deserializeRefFilter_write (l : Option (List String)) :
    deserializeRefFilter ((Codec.list .text).writeOption l) = some l := by
  cases l with
  | none => rfl
  | some l =>
      have h := Codec.readOption_writeOption (c := Codec.list .text) (some l)
      simp only [Codec.writeOption, Option.map_some] at h
      simp [deserializeRefFilter, Codec.writeOption, h]

def refsCodec : Codec Refs where
  write r := record [
    ("branches", (Codec.list .text).writeOption r.branches),
    ("tags", (Codec.list .text).writeOption r.tags)]
  read j := do
    let branches ← deserializeRefFilter (← j.field "branches")
    let tags ← deserializeRefFilter (← j.field "tags")
    return { branches, tags }
  read_write r := by simp [field_record, lookup_cons_eq_ite, deserializeRefFilter_write]
  write_ne_null _ := record_ne_null _

/-- `deserialize_trigger`: a trigger that is there counts, even as `null`. -/
def deserializeTrigger : Option Json → Option (Option Refs)
  | none => some none
  | some j => (refsCodec.readOption (some j)).map fun r => some (r.getD ⟨none, none⟩)

theorem deserializeTrigger_write (r : Option Refs) :
    deserializeTrigger (refsCodec.writeOption r) = some r := by
  cases r with
  | none => rfl
  | some r =>
      have h := Codec.readOption_writeOption (c := refsCodec) (some r)
      simp only [Codec.writeOption, Option.map_some] at h
      simp [deserializeTrigger, Codec.writeOption, h]

def triggersCodec : Codec PipelineTriggers where
  write t := record [
    ("push", refsCodec.writeOption t.push),
    ("pull_request", refsCodec.writeOption t.pullRequest),
    ("schedule", Codec.text.writeOption t.schedule)]
  read j := do
    let push ← deserializeTrigger (← j.field "push")
    let pullRequest ← deserializeTrigger (← j.field "pull_request")
    let schedule ← Codec.text.readOption (← j.field "schedule")
    return { push, pullRequest, schedule }
  read_write t := by simp [field_record, lookup_cons_eq_ite, deserializeTrigger_write]
  write_ne_null _ := record_ne_null _

def namedStepCodec : Codec NamedStep where
  write s := record [("name", some (Codec.text.write s.name)), ("run", some (Codec.text.write s.run))]
  read j := do
    let name ← Codec.text.readRequired (← j.field "name")
    let run ← Codec.text.readRequired (← j.field "run")
    return { name, run }
  read_write s := by simp [field_record, lookup_cons_eq_ite]
  write_ne_null _ := record_ne_null _

/-- A step is told by its shape: a text is a command. -/
def stepCodec : Codec PipelineStep where
  write
    | .inline command => .string command
    | .named step => namedStepCodec.write step
  read
    | .string command => some (.inline command)
    | j => (namedStepCodec.read j).map .named
  read_write
    | .inline _ => rfl
    | .named step => by
        show (namedStepCodec.read (namedStepCodec.write step)).map PipelineStep.named = some (.named step)
        simp
  write_ne_null
    | .inline _ => by simp
    | .named step => namedStepCodec.write_ne_null step

/-- The name and the path of a secret with a path of its own. -/
def customSecretCodec : Codec (String × String) where
  write s := record [("name", some (Codec.text.write s.1)), ("path", some (Codec.text.write s.2))]
  read j := do
    let name ← Codec.text.readRequired (← j.field "name")
    let path ← Codec.text.readRequired (← j.field "path")
    return (name, path)
  read_write s := by simp [field_record, lookup_cons_eq_ite]
  write_ne_null _ := record_ne_null _

/-- A secret in a file is told by its shape too: a text is its name. -/
def fileSecretCodec : Codec FileSecret where
  write
    | .default name => .string name
    | .custom name path => customSecretCodec.write (name, path)
  read
    | .string name => some (.default name)
    | j => (customSecretCodec.read j).map fun s => .custom s.1 s.2
  read_write
    | .default _ => rfl
    | .custom name path => by
        show (customSecretCodec.read (customSecretCodec.write (name, path))).map (fun s => FileSecret.custom s.1 s.2) =
          some (.custom name path)
        simp
  write_ne_null
    | .default _ => by simp
    | .custom name path => customSecretCodec.write_ne_null (name, path)

def Secrets.isEmpty (s : Secrets) : Bool := s.env.isEmpty && s.files.isEmpty

theorem Secrets.eq_of_isEmpty (s : Secrets) (h : Secrets.isEmpty s = true) : s = ⟨[], []⟩ := by
  obtain ⟨env, files⟩ := s
  simp_all [Secrets.isEmpty]

/-- A list that is left out where it is empty. -/
def writeList {α : Type} (c : Codec α) (l : List α) : Option Json := (Codec.list c).writeUnless List.isEmpty l

def readList {α : Type} (c : Codec α) : Option Json → Option (List α) := (Codec.list c).readOr []

@[simp] theorem readList_writeList {α : Type} (c : Codec α) (l : List α) : readList c (writeList c l) = some l :=
  Codec.readOr_writeUnless (fun _ => List.isEmpty_iff.mp) l

/-- A map that is left out where it is empty. -/
def writeMap (m : HashMap String String) : Option Json := (Codec.map .text).writeUnless (fun m => m.keys = ∅) m

def readMap : Option Json → Option (HashMap String String) := (Codec.map .text).readOr ∅

@[simp] theorem readMap_writeMap (m : HashMap String String) : readMap (writeMap m) = some m := by
  apply Codec.readOr_writeUnless _ m
  intro m hm
  exact HashMap.eq_empty_of_keys (of_decide_eq_true hm)

def secretsCodec : Codec Secrets where
  write s := record [("env", writeList .text s.env), ("files", writeList fileSecretCodec s.files)]
  read j := do
    let env ← readList .text (← j.field "env")
    let files ← readList fileSecretCodec (← j.field "files")
    return { env, files }
  read_write s := by simp [field_record, lookup_cons_eq_ite]
  write_ne_null _ := record_ne_null _

def writeSecrets (s : Secrets) : Option Json := secretsCodec.writeUnless Secrets.isEmpty s

def readSecrets : Option Json → Option Secrets := secretsCodec.readOr ⟨[], []⟩

@[simp] theorem readSecrets_writeSecrets (s : Secrets) : readSecrets (writeSecrets s) = some s :=
  Codec.readOr_writeUnless Secrets.eq_of_isEmpty s

/-- A flag that is left out where it is false. -/
def writeFlag (b : Bool) : Option Json := Codec.flag.writeUnless (! ·) b

def readFlag : Option Json → Option Bool := Codec.flag.readOr false

@[simp] theorem readFlag_writeFlag (b : Bool) : readFlag (writeFlag b) = some b :=
  Codec.readOr_writeUnless (fun _ h => by simpa using h) b

def nodeCodec : Codec PipelineNode where
  write n := record [
    ("name", some (Codec.text.write n.name)),
    ("image", Codec.text.writeOption n.image),
    ("timeout_secs", Codec.number.writeOption n.timeoutSecs),
    ("startup_timeout_secs", Codec.number.writeOption n.startupTimeoutSecs),
    ("checkout", Codec.flag.writeOption n.checkout),
    ("after", writeList .text n.after),
    ("env", writeMap n.env),
    ("secrets", writeSecrets n.secrets),
    ("steps", writeList stepCodec n.steps),
    ("privileged", writeFlag n.privileged),
    ("cache_size", Codec.text.writeOption n.cacheSize),
    ("cpu", Codec.text.writeOption n.cpu),
    ("memory", Codec.text.writeOption n.memory),
    ("volumes", writeMap n.volumes)]
  read j := do
    let name ← Codec.text.readRequired (← j.field "name")
    let image ← Codec.text.readOption (← j.field "image")
    let timeoutSecs ← Codec.number.readOption (← j.field "timeout_secs")
    let startupTimeoutSecs ← Codec.number.readOption (← j.field "startup_timeout_secs")
    let checkout ← Codec.flag.readOption (← j.field "checkout")
    let after ← readList .text (← j.field "after")
    let env ← readMap (← j.field "env")
    let secrets ← readSecrets (← j.field "secrets")
    let steps ← readList stepCodec (← j.field "steps")
    let privileged ← readFlag (← j.field "privileged")
    let cacheSize ← Codec.text.readOption (← j.field "cache_size")
    let cpu ← Codec.text.readOption (← j.field "cpu")
    let memory ← Codec.text.readOption (← j.field "memory")
    let volumes ← readMap (← j.field "volumes")
    return ⟨name, image, timeoutSecs, startupTimeoutSecs, checkout, after, env, secrets, steps, privileged, cacheSize,
      cpu, memory, volumes⟩
  read_write n := by simp [field_record, lookup_cons_eq_ite]
  write_ne_null _ := record_ne_null _

def pipelineCodec : Codec Pipeline where
  write p := record [
    ("name", some (Codec.text.write p.name)),
    ("timeout_secs", Codec.number.writeOption p.timeoutSecs),
    ("fail_fast", Codec.flag.writeOption p.failFast),
    ("on", triggersCodec.writeOption p.on),
    ("env", writeMap p.env),
    ("secrets", writeSecrets p.secrets),
    ("nodes", some ((Codec.list nodeCodec).write p.nodes))]
  read j := do
    let name ← Codec.text.readRequired (← j.field "name")
    let timeoutSecs ← Codec.number.readOption (← j.field "timeout_secs")
    let failFast ← Codec.flag.readOption (← j.field "fail_fast")
    let on ← triggersCodec.readOption (← j.field "on")
    let env ← readMap (← j.field "env")
    let secrets ← readSecrets (← j.field "secrets")
    let nodes ← (Codec.list nodeCodec).readRequired (← j.field "nodes")
    return { name, timeoutSecs, failFast, on, env, secrets, nodes }
  read_write p := by simp [field_record, lookup_cons_eq_ite]
  write_ne_null _ := record_ne_null _

/-! ## Stored states -/

def statusCodec : Codec NodeStatus where
  write
    | .pending => .string "Pending"
    | .running => .string "Running"
    | .success => .string "Success"
    | .failed => .string "Failed"
  read
    | .string "Pending" => some .pending
    | .string "Running" => some .running
    | .string "Success" => some .success
    | .string "Failed" => some .failed
    | _ => none
  read_write
    | .pending => rfl
    | .running => rfl
    | .success => rfl
    | .failed => rfl
  write_ne_null x := by cases x <;> simp

def runStateCodec : Codec RunState where
  write s := record [
    ("version", some (Codec.number.write s.version)),
    ("statuses", some ((Codec.map statusCodec).write s.statuses)),
    ("dependencies", some ((Codec.map (Codec.list .text)).write s.dependencies)),
    ("pipeline", some (pipelineCodec.write s.pipeline))]
  read j := do
    let version ← Codec.number.readRequired (← j.field "version")
    let statuses ← (Codec.map statusCodec).readRequired (← j.field "statuses")
    let dependencies ← (Codec.map (Codec.list .text)).readRequired (← j.field "dependencies")
    let pipeline ← pipelineCodec.readRequired (← j.field "pipeline")
    return { version, statuses, dependencies, pipeline }
  read_write s := by simp [field_record, lookup_cons_eq_ite]
  write_ne_null _ := record_ne_null _

end Jefferies.StateStore

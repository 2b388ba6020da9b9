import Jefferies.Collections.Reordering
import Jefferies.StateStore.Keyspace

/-!
# Storing a run

A run that is saved is read back with its pipeline. The entries of a map are written in an order that nothing
fixes, so the document that is read may have the fields of its objects in another order than the one that was
written here.
-/

namespace Jefferies.StateStore

open Pipelines Json Codec

/-! ## Triggers -/

theorem deserializeRefFilter_reads (l : Option (List String)) :
    Reads deserializeRefFilter ((Codec.list .text).writeOption l) l := by
  intro o' h
  cases l with
  | none =>
      cases h
      rfl
  | some l =>
      have hread := text_steady.list.option (some l) o' h
      cases h
      simp [deserializeRefFilter, hread]

theorem refsCodec_steady : refsCodec.Steady := by
  intro r j h
  simp only [refsCodec] at h ⊢
  rw [h.bind_field (by simp) "branches" (deserializeRefFilter_reads r.branches),
    h.bind_field (by simp) "tags" (deserializeRefFilter_reads r.tags)]
  rfl

theorem deserializeTrigger_reads (r : Option Refs) : Reads deserializeTrigger (refsCodec.writeOption r) r := by
  intro o' h
  cases r with
  | none =>
      cases h
      rfl
  | some r =>
      have hread := refsCodec_steady.option (some r) o' h
      cases h
      simp [deserializeTrigger, hread]

theorem triggersCodec_steady : triggersCodec.Steady := by
  intro t j h
  simp only [triggersCodec] at h ⊢
  rw [h.bind_field (by simp) "push" (deserializeTrigger_reads t.push),
    h.bind_field (by simp) "pull_request" (deserializeTrigger_reads t.pullRequest),
    h.bind_field (by simp) "schedule" (text_steady.option t.schedule)]
  rfl

/-! ## Steps and secrets -/

theorem namedStepCodec_steady : namedStepCodec.Steady := by
  intro s j h
  simp only [namedStepCodec] at h ⊢
  rw [h.bind_field (by simp) "name" (text_steady.required s.name),
    h.bind_field (by simp) "run" (text_steady.required s.run)]
  rfl

theorem stepCodec_steady : stepCodec.Steady := by
  intro s j h
  cases s with
  | inline command =>
      cases h
      rfl
  | named step =>
      have hread := namedStepCodec_steady step j h
      cases h
      show Option.map PipelineStep.named (namedStepCodec.read _) = _
      rw [hread]
      rfl

theorem customSecretCodec_steady : customSecretCodec.Steady := by
  intro s j h
  simp only [customSecretCodec] at h ⊢
  rw [h.bind_field (by simp) "name" (text_steady.required s.1),
    h.bind_field (by simp) "path" (text_steady.required s.2)]
  rfl

theorem fileSecretCodec_steady : fileSecretCodec.Steady := by
  intro s j h
  cases s with
  | default name =>
      cases h
      rfl
  | custom name path =>
      have hread := customSecretCodec_steady (name, path) j h
      cases h
      show Option.map (fun s : String × String => FileSecret.custom s.1 s.2) (customSecretCodec.read _) = _
      rw [hread]
      rfl

/-! ## Fields that are left out -/

theorem readList_reads {α : Type} {c : Codec α} (hc : c.Steady) (l : List α) :
    Reads (readList c) (writeList c l) l :=
  hc.list.or (fun _ => List.isEmpty_iff.mp) l

theorem readMap_reads (m : HashMap String String) : Reads readMap (writeMap m) m := by
  refine text_steady.map.or (fun m hm => ?_) m
  exact HashMap.eq_empty_of_keys (of_decide_eq_true hm)

theorem secretsCodec_steady : secretsCodec.Steady := by
  intro s j h
  simp only [secretsCodec] at h ⊢
  rw [h.bind_field (by simp) "env" (readList_reads text_steady s.env),
    h.bind_field (by simp) "files" (readList_reads fileSecretCodec_steady s.files)]
  rfl

theorem readSecrets_reads (s : Secrets) : Reads readSecrets (writeSecrets s) s :=
  secretsCodec_steady.or Secrets.eq_of_isEmpty s

theorem readFlag_reads (b : Bool) : Reads readFlag (writeFlag b) b :=
  flag_steady.or (fun _ h => by simpa using h) b

/-! ## Pipelines and states -/

theorem nodeCodec_steady : nodeCodec.Steady := by
  intro n j h
  simp only [nodeCodec] at h ⊢
  rw [h.bind_field (by simp) "name" (text_steady.required n.name),
    h.bind_field (by simp) "image" (text_steady.option n.image),
    h.bind_field (by simp) "timeout_secs" (number_steady.option n.timeoutSecs),
    h.bind_field (by simp) "startup_timeout_secs" (number_steady.option n.startupTimeoutSecs),
    h.bind_field (by simp) "checkout" (flag_steady.option n.checkout),
    h.bind_field (by simp) "after" (readList_reads text_steady n.after),
    h.bind_field (by simp) "env" (readMap_reads n.env),
    h.bind_field (by simp) "secrets" (readSecrets_reads n.secrets),
    h.bind_field (by simp) "steps" (readList_reads stepCodec_steady n.steps),
    h.bind_field (by simp) "privileged" (readFlag_reads n.privileged),
    h.bind_field (by simp) "cache_size" (text_steady.option n.cacheSize),
    h.bind_field (by simp) "cpu" (text_steady.option n.cpu),
    h.bind_field (by simp) "memory" (text_steady.option n.memory),
    h.bind_field (by simp) "volumes" (readMap_reads n.volumes)]
  rfl

theorem pipelineCodec_steady : pipelineCodec.Steady := by
  intro p j h
  simp only [pipelineCodec] at h ⊢
  rw [h.bind_field (by simp) "name" (text_steady.required p.name),
    h.bind_field (by simp) "timeout_secs" (number_steady.option p.timeoutSecs),
    h.bind_field (by simp) "fail_fast" (flag_steady.option p.failFast),
    h.bind_field (by simp) "on" (triggersCodec_steady.option p.on),
    h.bind_field (by simp) "env" (readMap_reads p.env),
    h.bind_field (by simp) "secrets" (readSecrets_reads p.secrets),
    h.bind_field (by simp) "nodes" (nodeCodec_steady.list.required p.nodes)]
  rfl

theorem statusCodec_steady : statusCodec.Steady := by
  intro s j h
  cases s <;> cases h <;> rfl

theorem runStateCodec_steady : runStateCodec.Steady := by
  intro s j h
  simp only [runStateCodec] at h ⊢
  rw [h.bind_field (by simp) "version" (number_steady.required s.version),
    h.bind_field (by simp) "statuses" (statusCodec_steady.map.required s.statuses),
    h.bind_field (by simp) "dependencies" (text_steady.list.map.required s.dependencies),
    h.bind_field (by simp) "pipeline" (pipelineCodec_steady.required s.pipeline)]
  rfl

/-! ## Saving and loading -/

/-- serde reads the text of the state as the document that was written, up to the order of fields. -/
def Texts.ReadsBack (texts : Texts) (state : RunState) : Prop :=
  ∃ j, texts.fromText (texts.ofState state) = .ok j ∧ Reorders (runStateCodec.write state) j

theorem Texts.ReadsBack.toState {texts : Texts} {state : RunState} (h : texts.ReadsBack state) :
    texts.toState (texts.ofState state) = .ok state := by
  obtain ⟨j, hj, hreorders⟩ := h
  simp only [Texts.toState, hj, runStateCodec_steady state j hreorders]

/-- A save that is accepted sets the state's text. -/
theorem Keyspace.saveRun_accepted {texts : Texts} {keyspace keyspace' : Keyspace} {runId : String} {state : RunState}
    {expected : Nat} (h : keyspace.saveRun texts runId state expected = (.ok true, keyspace')) :
    keyspace' = keyspace.set (stateKey runId) (texts.ofState state) := by
  unfold saveRun at h
  split at h
  · split at h <;> simp_all
  · split at h
    · simp at h
    · split at h <;> simp_all

/-- The pipeline of a run that has been saved is read back with the same name, timeouts, fail-fast flag and node
information, and with the same answers to pushes and pull requests. -/
theorem loadRun_keeps_pipeline {texts : Texts} {keyspace keyspace' : Keyspace} {runId : String} {state : RunState}
    {expected : Nat} (hread : texts.ReadsBack state)
    (hsave : keyspace.saveRun texts runId state expected = (.ok true, keyspace')) :
    ∃ stored, keyspace'.loadRun texts runId = .ok (some stored) ∧
      stored.pipeline.name = state.pipeline.name ∧
      stored.pipeline.pipelineTimeoutSecs = state.pipeline.pipelineTimeoutSecs ∧
      stored.pipeline.failFastOverride = state.pipeline.failFastOverride ∧
      stored.pipeline.nodeInfo = state.pipeline.nodeInfo ∧
      (∀ branch tag, stored.pipeline.triggeredByPush branch tag = state.pipeline.triggeredByPush branch tag) ∧
      ∀ branch, stored.pipeline.triggeredByPullRequest branch = state.pipeline.triggeredByPullRequest branch := by
  have hload : keyspace'.loadRun texts runId = .ok (some state) := by
    rw [Keyspace.saveRun_accepted hsave, Keyspace.loadRun, Keyspace.get, Keyspace.set, Finmap.lookup_insert]
    simp only [hread.toState]
    rfl
  exact ⟨state, hload, rfl, rfl, rfl, rfl, fun _ _ => rfl, fun _ => rfl⟩

/-- A run whose pipeline was declared with `branches: null` under `push`, and with `pull_request: null`. -/
def nullFilters : RunState where
  version := 0
  statuses := ∅
  dependencies := ∅
  pipeline :=
    { Pipeline.plain "ci" [.plain "build" []] with on := some ⟨some ⟨some [], none⟩, some ⟨none, none⟩, none⟩ }

def nullFiltersTexts : Texts where
  toText _ :=
    "\x7b\"version\":0,\"statuses\":\x7b\x7d,\"dependencies\":\x7b\x7d,\"pipeline\":\x7b\"name\":\"ci\"," ++
      "\"on\":\x7b\"push\":\x7b\"branches\":[]\x7d,\"pull_request\":\x7b\x7d\x7d," ++
      "\"nodes\":[\x7b\"name\":\"build\",\"steps\":[\"make\"]\x7d]\x7d\x7d"
  fromText _ := .ok (runStateCodec.write nullFilters)
  mismatch _ := ""
  toNumber n := n
  encodeLease _ := ""
  decode _ := .ok ⟨some 0, none⟩

theorem loadRun_keeps_pipeline_nullFilters :
    ∃ stored, ((Keyspace.empty.saveRun nullFiltersTexts "run" nullFilters 0).2).loadRun nullFiltersTexts "run" =
        .ok (some stored) ∧
      ∀ branch, stored.pipeline.triggeredByPullRequest branch = nullFilters.pipeline.triggeredByPullRequest branch := by
  have hread : nullFiltersTexts.ReadsBack nullFilters := ⟨_, rfl, .refl _⟩
  obtain ⟨stored, hload, _, _, _, _, _, hpull⟩ := loadRun_keeps_pipeline hread
    (show Keyspace.empty.saveRun nullFiltersTexts "run" nullFilters 0 = (.ok true, _) from rfl)
  exact ⟨stored, hload, hpull⟩

end Jefferies.StateStore

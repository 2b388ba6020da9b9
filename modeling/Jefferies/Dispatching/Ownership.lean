import Jefferies.Dispatching.Names
import Jefferies.Dispatching.Namespace
import Jefferies.Interaction.Following

/-!
# Whose the objects are

Whatever the dispatchers do and however their calls interleave, every object of the namespace was made for a node whose
dispatch a server has begun. What is done for one run leaves the objects of every other run as they are: an object is
found by the run's label, or by a name that no other run's object has.
-/

namespace Jefferies.Dispatching

open Pipelines Coordination Interaction Interact Transition

/-! ## Names of different runs -/

/-- A UUID as it is written out. -/
structure UuidText (s : String) : Prop where
  length : s.length = 36
  groups : ∀ i (hi : i < s.toList.length), if i ∈ [8, 13, 18, 23] then s.toList[i] = '-' else
    s.toList[i].isDigit = true ∨ 'a' ≤ s.toList[i] ∧ s.toList[i] ≤ 'f'

theorem isAlphanum_of_hex {c : Char} (h : c.isDigit = true ∨ 'a' ≤ c ∧ c ≤ 'f') : c.isAlphanum = true := by
  rcases h with h | ⟨ha, hf⟩
  · simp [Char.isAlphanum, h]
  · have hlower : c.isLower = true := by
      simp only [Char.isLower, Bool.and_eq_true, decide_eq_true_eq]
      exact ⟨ha, le_trans hf (by decide)⟩
    simp [Char.isAlphanum, Char.isAlpha, hlower]

section

variable {stableHash : String → String} {runId runId' n m : String}

/-- Nothing is trimmed off a UUID. -/
theorem UuidText.core_eq (h : UuidText runId) : core runId = runId.toList := by
  have hlength : runId.toList.length = 36 := by rw [String.length_toList, h.length]
  have hfirst := h.groups 0 (by omega)
  have hlast := h.groups 35 (by omega)
  rw [if_neg (by decide)] at hfirst hlast
  have hne : runId.toList ≠ [] := fun hnil => by simp [hnil] at hlength
  obtain ⟨c, rest, hcons⟩ := List.exists_cons_of_ne_nil hne
  have hdrop : (runId.toList.dropWhile fun c => !c.isAlphanum) = runId.toList := by
    have hc : c.isAlphanum = true := by
      have hget : runId.toList[0] = c := by simp [hcons]
      rw [← hget]
      exact isAlphanum_of_hex hfirst
    rw [hcons, List.dropWhile_cons_of_neg (by simp [hc])]
  rw [core, hdrop, trimEnd, List.rdropWhile_eq_self_iff]
  intro _
  rw [List.getLast_eq_getElem]
  have hget : runId.toList[runId.toList.length - 1] = runId.toList[35] := by simp only [hlength]
  rw [hget, isAlphanum_of_hex hlast]
  decide

/-- Of a UUID, the first group and the hash are kept. -/
theorem UuidText.kept_eq (h : UuidText runId) :
    kept stableHash runId runIdPrefixLen = runId.toList.take 8 ++ '-' :: (stableHash runId).toList := by
  have hlength : runId.toList.length = 36 := by rw [String.length_toList, h.length]
  have hlong : ¬(core runId).length ≤ keptLen runIdPrefixLen := by
    rw [h.core_eq, hlength]
    decide
  have htrim : trimEnd (runId.toList.take 8) = runId.toList.take 8 := by
    rw [trimEnd, List.rdropWhile_eq_self_iff]
    intro hne
    have hlast := h.groups 7 (by omega)
    rw [if_neg (by decide)] at hlast
    have hget : (runId.toList.take 8).getLast hne = runId.toList[7] := by
      rw [List.getLast_eq_getElem, List.getElem_take]
      simp only [List.length_take, hlength]
      rfl
    rw [hget, isAlphanum_of_hex hlast]
    decide
  rw [kept, if_neg hlong, shortened, h.core_eq, runIdPrefixLen, htrim]

/-- Jobs of different runs have different names, where their run ids have different hashes. -/
theorem stableHash_of_jobName (hhash : HexDigest stableHash) (h : UuidText runId) (h' : UuidText runId')
    (hname : jobName stableHash runId n = jobName stableHash runId' m) : stableHash runId = stableHash runId' := by
  have hlists := congrArg String.toList hname
  rw [toList_jobName hhash, toList_jobName hhash, h.kept_eq, h'.kept_eq] at hlists
  have hlength {s : String} (hs : UuidText s) : s.toList.length = 36 := by rw [String.length_toList, hs.length]
  have hrest := List.append_cancel_left hlists
  have hdigest (s : String) : (stableHash s).toList.length = stableHashLen := by rw [String.length_toList, hhash.length]
  obtain ⟨hruns, -⟩ := List.append_inj hrest (by simp [hlength h, hlength h', hdigest])
  rw [List.map_append, List.map_append, List.map_cons, List.map_cons, hhash.map_sanitizeChar,
    hhash.map_sanitizeChar] at hruns
  obtain ⟨-, hhashes⟩ := List.append_inj hruns (by simp [hlength h, hlength h'])
  exact String.toList_inj.mp (List.cons.inj hhashes).2

theorem configmapName_inj {k l : String} (h : configmapName stableHash runId k = configmapName stableHash runId' l) :
    jobName stableHash runId k = jobName stableHash runId' l := by
  have hlists := congrArg String.toList h
  rw [toList_configmapName, toList_configmapName] at hlists
  exact String.toList_inj.mp (List.append_cancel_right hlists)

end

/-! ## What an operation may call -/

section

variable (stableHash : String → String)

/-- The script of a node, as the run's ConfigMap. -/
def scriptOf (runId : String) (node : NodeInfo) : ConfigMap :=
  ⟨configmapName stableHash runId node.name, runLabels runId, [("script.sh", buildScript node.steps)]⟩

/-- The calls that are made for an operation: a dispatch creates the objects of its node, what is deleted has a name or
the label of the operation's run. -/
def Fits (op : Operation) : NamespaceEffect → Prop
  | .object (.createConfigMap cm) => ∃ runId metadata node, op = .dispatch runId metadata node ∧
      cm = scriptOf stableHash runId node
  | .object (.createJob job) => ∃ runId metadata node, op = .dispatch runId metadata node ∧
      job = buildJob stableHash runId node.name
  | .object (.deleteConfigMap name) => ∃ runId nodeName, op.runId = some runId ∧
      name = configmapName stableHash runId nodeName
  | .object (.deleteJob name) => ∃ runId nodeName, op.runId = some runId ∧ name = jobName stableHash runId nodeName
  | .deleteJobs selector => ∃ runId, op.runId = some runId ∧ selector = ⟨runIdLabel, runId⟩
  | .deleteConfigMaps selector => ∃ runId, op.runId = some runId ∧ selector = ⟨runIdLabel, runId⟩
  | _ => True

variable {stableHash}

theorem createObjects_fits (runId : String) (metadata : RunMetadata) (node : NodeInfo) :
    Calls (fun e => Fits stableHash (.dispatch runId metadata node) (.object e)) (createObjects stableHash runId node) := by
  apply Calls.seq
  · refine (calls_perform ⟨runId, metadata, node, rfl, rfl⟩).seq fun r => ?_
    cases r with
    | ok => exact calls_pure _
    | error => exact calls_pure _
  · intro r
    cases r with
    | error => exact calls_pure _
    | ok =>
        refine (calls_perform ⟨runId, metadata, node, rfl, rfl⟩).seq fun r => ?_
        cases r with
        | ok => exact calls_pure _
        | error => exact (calls_perform ⟨runId, node.name, rfl, rfl⟩).seq fun _ => calls_pure _

theorem dispatch_fits (runId : String) (metadata : RunMetadata) (node : NodeInfo) :
    Calls (fun e => Fits stableHash (.dispatch runId metadata node) (.object e))
      (dispatch stableHash runId metadata node) := by
  rw [dispatch]
  split
  · exact calls_pure _
  · refine (calls_perform trivial).seq fun r => ?_
    cases r with
    | error => exact calls_pure _
    | ok =>
        refine (calls_perform trivial).seq fun r => ?_
        cases r with
        | error => exact calls_pure _
        | ok =>
            refine Calls.seq ?_ fun r => ?_
            · rw [sourceUrl]
              split
              · exact calls_perform trivial
              · exact calls_pure _
            · cases r with
              | error => exact calls_pure _
              | ok => exact createObjects_fits runId metadata node

theorem cancelNode_fits (runId nodeName : String) :
    Calls (fun e => Fits stableHash (.cancelNode runId nodeName) (.object e)) (cancelNode stableHash runId nodeName) :=
  (calls_perform ⟨runId, nodeName, rfl, rfl⟩).seq fun _ =>
    (calls_perform ⟨runId, nodeName, rfl, rfl⟩).seq fun _ => calls_pure _

theorem cleanupRun_fits (runId : String) : Calls (Fits stableHash (.cleanupRun runId)) (cleanupRun runId) := by
  refine (calls_perform ⟨runId, rfl, rfl⟩).seq fun _ => ?_
  refine (calls_perform ⟨runId, rfl, rfl⟩).seq fun _ => ?_
  refine (calls_perform trivial).seq fun r => ?_
  cases r with
  | error => exact calls_pure _
  | ok => exact calls_pure _

theorem nodePodExists_fits (runId nodeName : String) :
    Calls (Fits stableHash (.nodePodExists runId nodeName)) (nodePodExists runId nodeName) := by
  refine (calls_perform trivial).seq fun r => ?_
  cases r with
  | error => exact calls_pure _
  | ok => exact calls_pure _

theorem listManagedRunIds_fits : Calls (Fits stableHash .listManagedRunIds) listManagedRunIds := by
  refine (calls_perform trivial).seq fun r => ?_
  cases r with
  | error => exact calls_pure _
  | ok =>
      refine (calls_perform trivial).seq fun r => ?_
      cases r with
      | error => exact calls_pure _
      | ok => exact calls_pure _

theorem carryOut_fits (op : Operation) : Calls (Fits stableHash op) (op.carryOut stableHash) := by
  cases op with
  | dispatch runId metadata node =>
      have hcalls : Calls (Fits stableHash (.dispatch runId metadata node)) (objects (dispatch stableHash runId metadata node)) :=
        fun s => (dispatch_fits runId metadata node s).embed
      exact hcalls.seq fun _ => calls_pure _
  | cancelNode runId nodeName =>
      have hcalls : Calls (Fits stableHash (.cancelNode runId nodeName)) (objects (cancelNode stableHash runId nodeName)) :=
        fun s => (cancelNode_fits runId nodeName s).embed
      exact hcalls.seq fun _ => calls_pure _
  | cleanupRun runId => exact (cleanupRun_fits runId).seq fun _ => calls_pure _
  | nodePodExists runId nodeName => exact (nodePodExists_fits runId nodeName).seq fun _ => calls_pure _
  | listManagedRunIds => exact listManagedRunIds_fits.seq fun _ => calls_pure _

end

/-! ## Owners -/

section

variable {stableHash : String → String} {ops : List Operation} {op : Operation} {w : Namespace}

variable (stableHash) in
/-- Every object was made for a node whose dispatch is one of the operations, and no two of a kind have one name. -/
structure Owned (ops : List Operation) (w : Namespace) : Prop where
  configMaps : ∀ cm ∈ w.cluster.configMaps, ∃ runId metadata node, .dispatch runId metadata node ∈ ops ∧
    cm = scriptOf stableHash runId node
  jobs : ∀ job ∈ w.cluster.jobs, ∃ runId metadata node, .dispatch runId metadata node ∈ ops ∧
    job = buildJob stableHash runId node.name
  pods : ∀ pod ∈ w.pods, ∃ runId metadata node, .dispatch runId metadata node ∈ ops ∧
    pod = ⟨runLabels runId, nodeAnnotations node.name⟩
  configMapNames : (w.cluster.configMaps.map (·.name)).Nodup
  jobNames : (w.cluster.jobs.map (·.name)).Nodup

theorem Owned.empty : Owned stableHash [] .empty := by
  constructor <;> simp [Namespace.empty]

theorem Owned.more (h : Owned stableHash ops w) (op : Operation) : Owned stableHash (op :: ops) w where
  configMaps cm hcm := by
    obtain ⟨runId, metadata, node, hop, heq⟩ := h.configMaps cm hcm
    exact ⟨runId, metadata, node, List.mem_cons_of_mem _ hop, heq⟩
  jobs job hjob := by
    obtain ⟨runId, metadata, node, hop, heq⟩ := h.jobs job hjob
    exact ⟨runId, metadata, node, List.mem_cons_of_mem _ hop, heq⟩
  pods pod hpod := by
    obtain ⟨runId, metadata, node, hop, heq⟩ := h.pods pod hpod
    exact ⟨runId, metadata, node, List.mem_cons_of_mem _ hop, heq⟩
  configMapNames := h.configMapNames
  jobNames := h.jobNames

/-- What is left of the objects is owned. -/
theorem Owned.fewer (h : Owned stableHash ops w) {configMaps : List ConfigMap} {jobs : List Job} {pods : List Pod}
    {refused : List String} (hcm : configMaps.Sublist w.cluster.configMaps) (hjobs : jobs.Sublist w.cluster.jobs)
    (hpods : pods.Sublist w.pods) : Owned stableHash ops ⟨⟨configMaps, jobs, refused⟩, pods⟩ where
  configMaps cm h' := h.configMaps cm (hcm.subset h')
  jobs job h' := h.jobs job (hjobs.subset h')
  pods pod h' := h.pods pod (hpods.subset h')
  configMapNames := (hcm.map _).nodup h.configMapNames
  jobNames := (hjobs.map _).nodup h.jobNames

theorem Owned.serve_object (h : Owned stableHash ops w) (hop : op ∈ ops) {e : KubeEffect}
    (hfits : Fits stableHash op (.object e)) : Owned stableHash ops (w.serve (.object e)) := by
  cases e with
  | createConfigMap cm =>
      obtain ⟨runId, metadata, node, rfl, rfl⟩ := hfits
      simp only [Namespace.serve, Cluster.serve]
      split
      · exact h.fewer (.refl _) (.refl _) (.refl _)
      · rename_i hname
        refine ⟨?_, h.jobs, h.pods, ?_, h.jobNames⟩
        · intro cm hcm
          rcases List.mem_cons.mp hcm with rfl | hcm
          · exact ⟨runId, metadata, node, hop, rfl⟩
          · exact h.configMaps cm hcm
        · refine List.nodup_cons.mpr ⟨fun hmem => hname ?_, h.configMapNames⟩
          obtain ⟨cm, hcm, hcmname⟩ := List.mem_map.mp hmem
          exact ⟨cm, hcm, hcmname⟩
  | createJob job =>
      obtain ⟨runId, metadata, node, rfl, rfl⟩ := hfits
      simp only [Namespace.serve, Cluster.serve]
      split
      · exact h.fewer (.refl _) (.refl _) (.refl _)
      · rename_i hname
        refine ⟨h.configMaps, ?_, h.pods, h.configMapNames, ?_⟩
        · intro job hjob
          rcases List.mem_cons.mp hjob with rfl | hjob
          · exact ⟨runId, metadata, node, hop, rfl⟩
          · exact h.jobs job hjob
        · refine List.nodup_cons.mpr ⟨fun hmem => hname ?_, h.jobNames⟩
          obtain ⟨job, hjob, hjobname⟩ := List.mem_map.mp hmem
          exact ⟨job, hjob, hjobname⟩
  | deleteConfigMap name => exact h.fewer List.filter_sublist (.refl _) (.refl _)
  | deleteJob name => exact h.fewer (.refl _) List.filter_sublist (.refl _)
  | putStatusUrl => exact h
  | putLogsUrl => exact h
  | getSourceUrl => exact h

theorem Owned.serve (h : Owned stableHash ops w) (hop : op ∈ ops) {e : NamespaceEffect} (hfits : Fits stableHash op e) :
    Owned stableHash ops (w.serve e) := by
  cases e with
  | object e => exact h.serve_object hop hfits
  | deleteJobs selector => exact h.fewer (.refl _) List.filter_sublist (.refl _)
  | deleteConfigMaps selector => exact h.fewer List.filter_sublist (.refl _) (.refl _)
  | cleanupSources => exact h
  | listPods => exact h
  | listJobs => exact h
  | listConfigMaps => exact h

theorem Owned.fare (h : Owned stableHash ops w) (hop : op ∈ ops) {e : NamespaceEffect} (hfits : Fits stableHash op e)
    (c : Fortune) : Owned stableHash ops (w.fare e c) := by
  cases c with
  | refused => exact h
  | served => exact h.serve hop hfits
  | lost => exact h.serve hop hfits
  | url => exact h.serve hop hfits

theorem Owned.happen (h : Owned stableHash ops w) {l : Happening} {w' : Namespace} (hl : w.happen l = some w') :
    Owned stableHash ops w' := by
  cases l with
  | begin op =>
      cases hl
      exact h
  | podStarts job =>
      simp only [Namespace.happen] at hl
      split at hl
      · rename_i hjob
        cases hl
        obtain ⟨j, hj, -, hlabels, hannotations⟩ := hjob
        obtain ⟨runId, metadata, node, hop, rfl⟩ := h.jobs j hj
        refine ⟨h.configMaps, h.jobs, ?_, h.configMapNames, h.jobNames⟩
        intro pod hpod
        rcases List.mem_cons.mp hpod with rfl | hpod
        · exact ⟨runId, metadata, node, hop, by rw [← hlabels, ← hannotations]; rfl⟩
        · exact h.pods pod hpod
      · cases hl
  | podGoes n =>
      cases hl
      exact h.fewer (.refl _) (.refl _) (List.eraseIdx_sublist _ _)
  | jobGoes n =>
      cases hl
      exact h.fewer (.refl _) (List.eraseIdx_sublist _ _) (.refl _)
  | configMapGoes n =>
      cases hl
      exact h.fewer (List.eraseIdx_sublist _ _) (.refl _) (.refl _)

end

/-! ## What one run leaves to the others -/

/-- The objects with the run's label. -/
def Namespace.objectsOf (w : Namespace) (runId : String) : List ConfigMap × List Job × List Pod :=
  let selector : Selector := ⟨runIdLabel, runId⟩
  (w.cluster.configMaps.filter (selector.selects ·.labels), w.cluster.jobs.filter (selector.selects ·.labels),
    w.pods.filter (selector.selects ·.labels))

section

variable {stableHash : String → String} {ops : List Operation} {op : Operation} {w : Namespace} {runId runId' : String}

variable (stableHash) in
/-- The run ids are UUIDs, and no two of them have one hash. -/
structure Identified (ops : List Operation) : Prop where
  uuids : ∀ op ∈ ops, ∀ runId ∈ op.runId, UuidText runId
  hashes : ∀ op ∈ ops, ∀ op' ∈ ops, ∀ runId ∈ op.runId, ∀ runId' ∈ op'.runId,
    stableHash runId = stableHash runId' → runId = runId'

theorem Identified.fewer {ops' : List Operation} (h : Identified stableHash ops) (hsub : ∀ op ∈ ops', op ∈ ops) :
    Identified stableHash ops' :=
  ⟨fun op hop => h.uuids op (hsub op hop),
    fun op hop op' hop' => h.hashes op (hsub op hop) op' (hsub op' hop')⟩

theorem selects_runLabels : (⟨runIdLabel, runId⟩ : Selector).selects (runLabels runId') = decide (runId' = runId) := by
  have hother : ("the-conn.com/run-id" == "the-conn.com/managed-by") = false := by decide
  simp [Selector.selects, runLabels, runIdLabel, List.lookup, hother]
  rfl

/-- Taking away objects of one run changes nothing for another. -/
theorem filter_objects {α : Type} {objects : List α} {labels : α → BTreeMap String} {keep : α → Bool}
    (h : ∀ x ∈ objects, (⟨runIdLabel, runId⟩ : Selector).selects (labels x) = true → keep x = true) :
    (objects.filter keep).filter (fun x => (⟨runIdLabel, runId⟩ : Selector).selects (labels x)) =
      objects.filter fun x => (⟨runIdLabel, runId⟩ : Selector).selects (labels x) := by
  rw [List.filter_filter]
  apply List.filter_congr
  intro x hx
  cases hselects : (⟨runIdLabel, runId⟩ : Selector).selects (labels x) with
  | false => rfl
  | true => rw [h x hx hselects, Bool.and_self]

/-- An object that has the name of an operation's object is of the operation's run. -/
theorem Identified.same_run (hhash : HexDigest stableHash) (h : Identified stableHash ops) {metadata : RunMetadata}
    {node : NodeInfo} {n : String} (hdispatch : .dispatch runId metadata node ∈ ops) (hop : op ∈ ops)
    (hrun : op.runId = some runId') (hname : jobName stableHash runId node.name = jobName stableHash runId' n) :
    runId = runId' := by
  refine h.hashes _ hdispatch op hop runId rfl runId' hrun ?_
  exact stableHash_of_jobName hhash (h.uuids _ hdispatch runId rfl) (h.uuids op hop runId' hrun) hname

theorem Owned.serve_object_apart (hhash : HexDigest stableHash) (h : Owned stableHash ops w)
    (hid : Identified stableHash ops) (hop : op ∈ ops) {e : KubeEffect} (hfits : Fits stableHash op (.object e))
    (hrun : op.runId ≠ some runId) : (w.serve (.object e)).objectsOf runId = w.objectsOf runId := by
  cases e with
  | createConfigMap cm =>
      obtain ⟨own, metadata, node, rfl, rfl⟩ := hfits
      have hother : decide (own = runId) = false := decide_eq_false fun heq => hrun (congrArg some heq)
      simp only [Namespace.serve, Cluster.serve]
      split
      · rfl
      · simp [Namespace.objectsOf, scriptOf, selects_runLabels, hother]
  | createJob job =>
      obtain ⟨own, metadata, node, rfl, rfl⟩ := hfits
      have hother : decide (own = runId) = false := decide_eq_false fun heq => hrun (congrArg some heq)
      simp only [Namespace.serve, Cluster.serve]
      split
      · rfl
      · simp [Namespace.objectsOf, buildJob, selects_runLabels, hother]
  | deleteConfigMap name =>
      obtain ⟨own, nodeName, hown, rfl⟩ := hfits
      have hkept : ∀ cm ∈ w.cluster.configMaps, (⟨runIdLabel, runId⟩ : Selector).selects cm.labels = true →
          decide (cm.name ≠ configmapName stableHash own nodeName) = true := by
        intro cm hcm hselects
        obtain ⟨runId', metadata, node, hdispatch, rfl⟩ := h.configMaps cm hcm
        obtain rfl : runId' = runId := by simpa [scriptOf, selects_runLabels] using hselects
        refine decide_eq_true fun hname => hrun ?_
        rw [hown, hid.same_run hhash hdispatch hop hown (configmapName_inj hname)]
      simp only [Namespace.objectsOf, Namespace.serve, Cluster.serve, filter_objects hkept]
  | deleteJob name =>
      obtain ⟨own, nodeName, hown, rfl⟩ := hfits
      have hkept : ∀ job ∈ w.cluster.jobs, (⟨runIdLabel, runId⟩ : Selector).selects job.labels = true →
          decide (job.name ≠ jobName stableHash own nodeName) = true := by
        intro job hjob hselects
        obtain ⟨runId', metadata, node, hdispatch, rfl⟩ := h.jobs job hjob
        obtain rfl : runId' = runId := by simpa [buildJob, selects_runLabels] using hselects
        refine decide_eq_true fun hname => hrun ?_
        rw [hown, hid.same_run hhash hdispatch hop hown hname]
      simp only [Namespace.objectsOf, Namespace.serve, Cluster.serve, filter_objects hkept]
  | putStatusUrl => rfl
  | putLogsUrl => rfl
  | getSourceUrl => rfl

theorem Owned.serve_apart (hhash : HexDigest stableHash) (h : Owned stableHash ops w)
    (hid : Identified stableHash ops) (hop : op ∈ ops) {e : NamespaceEffect} (hfits : Fits stableHash op e)
    (hrun : op.runId ≠ some runId) : (w.serve e).objectsOf runId = w.objectsOf runId := by
  have hlabel {own : String} (hown : op.runId = some own) (labels : BTreeMap String) (runId' : String)
      (hlabels : labels = runLabels runId') (hselects : (⟨runIdLabel, runId⟩ : Selector).selects labels = true) :
      (!(⟨runIdLabel, own⟩ : Selector).selects labels) = true := by
    rw [hlabels, selects_runLabels] at hselects
    obtain rfl := of_decide_eq_true hselects
    rw [hlabels, selects_runLabels, Bool.not_eq_true', decide_eq_false_iff_not]
    intro heq
    exact hrun (heq ▸ hown)
  cases e with
  | object e => exact h.serve_object_apart hhash hid hop hfits hrun
  | deleteJobs selector =>
      obtain ⟨own, hown, rfl⟩ := hfits
      have hkept : ∀ job ∈ w.cluster.jobs, (⟨runIdLabel, runId⟩ : Selector).selects job.labels = true →
          (!(⟨runIdLabel, own⟩ : Selector).selects job.labels) = true := by
        intro job hjob
        obtain ⟨runId', metadata, node, -, rfl⟩ := h.jobs job hjob
        exact hlabel hown _ runId' rfl
      simp only [Namespace.objectsOf, Namespace.serve, filter_objects hkept]
  | deleteConfigMaps selector =>
      obtain ⟨own, hown, rfl⟩ := hfits
      have hkept : ∀ cm ∈ w.cluster.configMaps, (⟨runIdLabel, runId⟩ : Selector).selects cm.labels = true →
          (!(⟨runIdLabel, own⟩ : Selector).selects cm.labels) = true := by
        intro cm hcm
        obtain ⟨runId', metadata, node, -, rfl⟩ := h.configMaps cm hcm
        exact hlabel hown _ runId' rfl
      simp only [Namespace.objectsOf, Namespace.serve, filter_objects hkept]
  | cleanupSources => rfl
  | listPods => rfl
  | listJobs => rfl
  | listConfigMaps => rfl

theorem Owned.fare_apart (hhash : HexDigest stableHash) (h : Owned stableHash ops w)
    (hid : Identified stableHash ops) (hop : op ∈ ops) {e : NamespaceEffect} (hfits : Fits stableHash op e)
    (hrun : op.runId ≠ some runId) (c : Fortune) : (w.fare e c).objectsOf runId = w.objectsOf runId := by
  cases c with
  | refused => rfl
  | served => exact h.serve_apart hhash hid hop hfits hrun
  | lost => exact h.serve_apart hhash hid hop hfits hrun
  | url => exact h.serve_apart hhash hid hop hfits hrun

end

/-! ## Every run of the dispatchers -/

abbrev NamespaceConfig : Type := Config Namespace Operation NamespaceResp Outcome

abbrev NamespaceStep : Type := Step NamespaceConfig (Act Empty Fortune Happening)

/-- The operations begun so far, with the step. -/
def noteBegun (ops : List Operation) (t : NamespaceStep) : List Operation :=
  match t.label with
  | .outside (.begin op) => op :: ops
  | _ => ops

/-- The operations that were begun. -/
def begun (h : List NamespaceStep) : List Operation := history noteBegun [] h

/-- At first there are no objects and no operations. -/
def BlankNamespace (σ : NamespaceConfig) : Prop := σ = ⟨.empty, []⟩

/-- A process makes the calls of its operation. -/
def errand (stableHash : String → String) : Monitor Operation Operation Empty NamespaceResp where
  assume _ _ := True
  ok op s e := s = op ∧ Fits stableHash op e
  next op _ := op

theorem obeys_errand {stableHash : String → String} {op : Operation} {p : Prog Unit NamespaceResp Outcome}
    (h : p.Calls (Fits stableHash op)) :
    (errand stableHash).Obeys (p.map (fun _ => op) some) op fun _ _ _ => True := by
  induction p with
  | ret s a => trivial
  | call s e k ih => exact ⟨⟨rfl, h.1⟩, fun r _ => ih r (h.2 r)⟩

/-- Every process carries out an operation that was begun. -/
def errands (stableHash : String → String) : Protocol (dispatchers stableHash) (errand stableHash) (List Operation) where
  post _ _ _ := True
  next := noteBegun
  inv ops σ := Owned stableHash ops σ.world
  rel ops _ _ op := op ∈ ops
  handlers _ _ i := i.elim
  answer := by
    intro ops σ i c s e k a op hinv hrel _ hok ha
    obtain ⟨r, -, rfl⟩ := Option.map_eq_some_iff.mp ha
    exact ⟨trivial, hinv.fare hrel hok.2 c, hrel, fun _ _ _ _ h => h, fun _ _ h => by simp [dispatchers] at h⟩
  deliver := fun {_ _ _ i} => i.elim
  crash := fun hinv => ⟨hinv, fun _ _ _ _ h => h⟩
  outside := by
    intro ops σ l a hinv ha
    obtain ⟨w', hw', rfl⟩ := Option.map_eq_some_iff.mp ha
    have howned := hinv.happen hw'
    cases l with
    | begin op =>
        refine ⟨howned.more op, fun _ _ _ h => List.mem_cons_of_mem _ h, fun j p hj => ⟨op, ?_, List.mem_cons_self⟩⟩
        cases j with
        | zero =>
            cases hj
            exact obeys_errand (carryOut_fits op ())
        | succ j => simp at hj
    | podStarts => exact ⟨howned, fun _ _ _ h => h, fun _ _ h => by simp at h⟩
    | podGoes => exact ⟨howned, fun _ _ _ h => h, fun _ _ h => by simp at h⟩
    | jobGoes => exact ⟨howned, fun _ _ _ h => h, fun _ _ h => by simp at h⟩
    | configMapGoes => exact ⟨howned, fun _ _ _ h => h, fun _ _ h => by simp at h⟩

section

variable {stableHash : String → String} {h : List NamespaceStep} {σ : NamespaceConfig}

theorem errands_hold (hr : Run (dispatchers stableHash).step BlankNamespace h σ) :
    (errands stableHash).Holds (begun h) σ := by
  refine (errands stableHash).holds ?_ hr
  rintro σ rfl
  exact ⟨.empty, fun _ _ h => by simp at h⟩

theorem mem_begun_append {h₁ h₂ : List NamespaceStep} {op : Operation} (hop : op ∈ begun h₁) : op ∈ begun (h₁ ++ h₂) := by
  induction h₂ using List.reverseRecOn with
  | nil => simpa using hop
  | append_singleton h₂ t ih =>
      rw [← List.append_assoc, begun, history_snoc, noteBegun]
      split
      · exact List.mem_cons_of_mem _ ih
      · exact ih

/-- An operation on one run leaves the objects of the others as they are. -/
def KeptApart (h : List NamespaceStep) : Prop :=
  Always (fun _ t => ∀ i c p, t.label = .answer i c → t.before.procs[i]? = some (some p) →
    ∀ runId, p.state.runId ≠ some runId → t.after.world.objectsOf runId = t.before.world.objectsOf runId) h

/-- Whatever the dispatchers of the servers do, every object there is was made for a node whose dispatch was begun, and
no operation on a run touches an object of another. -/
theorem runs_kept_apart (hhash : HexDigest stableHash)
    (hr : Run (dispatchers stableHash).step BlankNamespace h σ) (hid : Identified stableHash (begun h)) :
    Owned stableHash (begun h) σ.world ∧ KeptApart h := by
  refine ⟨(errands_hold hr).1, ?_⟩
  rintro h₁ ⟨before, _, after⟩ h₂ rfl i c p rfl hp runId hrun
  obtain ⟨hbefore, hstep⟩ := hr.split
  obtain ⟨howned, hprocs⟩ := errands_hold hbefore
  have hid₁ : Identified stableHash (begun h₁) := hid.fewer fun op hop => mem_begun_append hop
  obtain ⟨s, e, k, a, hp', ha, hafter⟩ := System.step_answer hstep
  rw [hp] at hp'
  cases hp'
  obtain ⟨op, hop, ⟨rfl, hfits⟩, -⟩ := hprocs i _ hp
  obtain ⟨r, -, rfl⟩ := Option.map_eq_some_iff.mp ha
  rw [show after = _ from hafter]
  exact howned.fare_apart hhash hid₁ hop hfits hrun c

/-! ## Listings -/

/-- Some Job has the run's label. -/
def Namespace.HasJobOf (w : Namespace) (runId : String) : Prop :=
  ∃ job ∈ w.cluster.jobs, job.labels.lookup runIdLabel = some runId

/-- Some ConfigMap has the run's label. -/
def Namespace.HasConfigMapOf (w : Namespace) (runId : String) : Prop :=
  ∃ cm ∈ w.cluster.configMaps, cm.labels.lookup runIdLabel = some runId

theorem mem_insertRunIds {runIds : Finset String} {labels : List (BTreeMap String)} {runId : String} :
    runId ∈ insertRunIds runIds labels ↔ runId ∈ runIds ∨ ∃ l ∈ labels, l.lookup runIdLabel = some runId := by
  induction labels generalizing runIds with
  | nil => simp [insertRunIds]
  | cons l labels ih =>
      rw [insertRunIds, List.foldl_cons, ← insertRunIds, ih]
      cases hl : l.lookup runIdLabel with
      | none => simp [hl]
      | some other =>
          simp only [Finset.mem_insert, List.mem_cons, exists_eq_or_imp, hl, Option.some.injEq]
          rw [eq_comm, or_assoc, or_left_comm]

/-- A process that carries out an operation shows it wherever it is. -/
theorem exec_process {op : Operation} {p : Prog Unit NamespaceResp Outcome} {tr : List (Moment Operation Empty NamespaceResp)}
    {q : Prog Operation NamespaceResp (Option Outcome)}
    (h : Exec (dispatchers stableHash).handle (p.map (fun _ => op) some) tr q) : q.state = op := by
  induction p generalizing tr with
  | ret s a =>
      cases h with
      | refl => rfl
  | call s e k ih =>
      cases h with
      | refl => rfl
      | answered r h => exact ih r h

/-- The step that starts a process begins its operation. -/
theorem started_begin {t : NamespaceStep} {p : Prog Operation NamespaceResp (Option Outcome)}
    (h : (dispatchers stableHash).Starts t p) :
    ∃ op, t.label = .outside (.begin op) ∧ p = op.process stableHash := by
  obtain ⟨before, label, after⟩ := t
  cases label with
  | answer i c =>
      obtain ⟨_, _, _, _, hp⟩ := h
      simp [dispatchers] at hp
  | deliver i input => exact input.elim
  | crash i => exact h.elim
  | outside l =>
      obtain ⟨a, ha, hp⟩ := h
      obtain ⟨w', -, rfl⟩ := Option.map_eq_some_iff.mp ha
      cases l with
      | begin op =>
          obtain rfl := List.mem_singleton.mp hp
          exact ⟨op, rfl, rfl⟩
      | podStarts => simp at hp
      | podGoes => simp at hp
      | jobGoes => simp at hp
      | configMapGoes => simp at hp

/-- The two lists behind a listing. -/
theorem exec_listing {tr : List (Moment Operation Empty NamespaceResp)} {op : Operation} {ids : Finset String}
    (h : Exec (dispatchers stableHash).handle (Operation.process stableHash .listManagedRunIds) tr
      (.ret op (some (.listed (.ok ids))))) :
    ∃ jobs configMaps, tr = [.answered .listManagedRunIds (.listJobs ⟨managedByLabel, "jefferies"⟩) (.ok jobs),
        .answered .listManagedRunIds (.listConfigMaps ⟨managedByLabel, "jefferies"⟩) (.ok configMaps)] ∧
      ids = insertRunIds (insertRunIds ∅ (jobs.map (·.labels))) (configMaps.map (·.labels)) := by
  cases h with
  | answered r h =>
      cases r with
      | error e => cases h
      | ok jobs =>
          cases h with
          | answered r h =>
              cases r with
              | error e => cases h
              | ok configMaps =>
                  cases h with
                  | refl => exact ⟨jobs, configMaps, rfl, rfl⟩

theorem managed_runLabels (runId : String) : (⟨managedByLabel, "jefferies"⟩ : Selector).selects (runLabels runId) = true := by
  simp [Selector.selects, runLabels, managedByLabel]

theorem listed_jobs {w w' : Namespace} {op : Operation} {selector : Selector} {c : Fortune} {jobs : List Job}
    (h : (dispatchers stableHash).respond w op (.listJobs selector) c = some (.ok jobs, w')) :
    jobs = w.cluster.jobs.filter (selector.selects ·.labels) := by
  cases c with
  | served =>
      cases h
      rfl
  | refused => cases h
  | lost => cases h
  | url => cases h

theorem listed_configMaps {w w' : Namespace} {op : Operation} {selector : Selector} {c : Fortune}
    {configMaps : List ConfigMap}
    (h : (dispatchers stableHash).respond w op (.listConfigMaps selector) c = some (.ok configMaps, w')) :
    configMaps = w.cluster.configMaps.filter (selector.selects ·.labels) := by
  cases c with
  | served =>
      cases h
      rfl
  | refused => cases h
  | lost => cases h
  | url => cases h

/-- A listing that has ended well has every run that had a Job, or a ConfigMap, all the while, and only runs that had one
at some time since it was begun. -/
theorem listed_runs (hr : Run (dispatchers stableHash).step BlankNamespace h σ) {i : Nat} {ids : Finset String}
    (hend : σ.procs[i]? = some (some (.ret .listManagedRunIds (some (.listed (.ok ids)))))) :
    ∃ before t since, h = before ++ t :: since ∧ t.label = .outside (.begin .listManagedRunIds) ∧
      (∀ runId, (∀ t' ∈ since, t'.before.world.HasJobOf runId) ∨
        (∀ t' ∈ since, t'.before.world.HasConfigMapOf runId) → runId ∈ ids) ∧
      ∀ runId ∈ ids, ∃ t' ∈ since, t'.before.world.HasJobOf runId ∨ t'.before.world.HasConfigMapOf runId := by
  obtain ⟨before, t, since, p, rfl, hstarts, tr, worlds, hexec, hshows, hsub⟩ :=
    System.followed (fun σ hσ => by rw [hσ]) hr i _ hend
  obtain ⟨op, hbegin, rfl⟩ := started_begin hstarts
  obtain rfl : .listManagedRunIds = op := exec_process hexec
  obtain ⟨jobs, configMaps, rfl, rfl⟩ := exec_listing hexec
  -- the worlds in which the two lists were made
  obtain ⟨w₁, worlds₁, ⟨c₁, w₁', hjobs⟩, hrest, rfl⟩ := List.forall₂_cons_right_iff.mp hshows
  obtain ⟨w₂, worlds₂, ⟨c₂, w₂', hconfigMaps⟩, hnil, rfl⟩ := List.forall₂_cons_right_iff.mp hrest
  obtain ⟨t₁, ht₁, rfl⟩ := List.mem_map.mp (hsub.subset (List.mem_cons_self ..))
  obtain ⟨t₂, ht₂, rfl⟩ := List.mem_map.mp (hsub.subset (List.mem_cons_of_mem _ (List.mem_cons_self ..)))
  obtain rfl := listed_jobs hjobs
  obtain rfl := listed_configMaps hconfigMaps
  have howned : ∀ t' ∈ since, ∃ ops, Owned stableHash ops t'.before.world := by
    intro t' ht'
    obtain ⟨s₁, s₂, rfl⟩ := List.append_of_mem ht'
    rw [← List.cons_append, ← List.append_assoc] at hr
    exact ⟨_, (errands_hold hr.split.1).1⟩
  refine ⟨before, t, since, rfl, hbegin, fun runId hall => ?_, fun runId hmem => ?_⟩
  · rw [mem_insertRunIds, mem_insertRunIds]
    rcases hall with hall | hall
    · obtain ⟨job, hjob, hlabel⟩ := hall t₁ ht₁
      obtain ⟨ops, h₁⟩ := howned t₁ ht₁
      obtain ⟨runId', metadata, node, -, rfl⟩ := h₁.jobs job hjob
      refine .inl (.inr ⟨_, List.mem_map_of_mem (List.mem_filter.mpr ⟨hjob, managed_runLabels runId'⟩), hlabel⟩)
    · obtain ⟨cm, hcm, hlabel⟩ := hall t₂ ht₂
      obtain ⟨ops, h₂⟩ := howned t₂ ht₂
      obtain ⟨runId', metadata, node, -, rfl⟩ := h₂.configMaps cm hcm
      refine .inr ⟨_, List.mem_map_of_mem (List.mem_filter.mpr ⟨hcm, managed_runLabels runId'⟩), hlabel⟩
  · rw [mem_insertRunIds, mem_insertRunIds] at hmem
    rcases hmem with (hmem | ⟨labels, hlabels, hlabel⟩) | ⟨labels, hlabels, hlabel⟩
    · cases hmem
    · obtain ⟨job, hjob, rfl⟩ := List.mem_map.mp hlabels
      exact ⟨t₁, ht₁, .inl ⟨job, (List.mem_filter.mp hjob).1, hlabel⟩⟩
    · obtain ⟨cm, hcm, rfl⟩ := List.mem_map.mp hlabels
      exact ⟨t₂, ht₂, .inr ⟨cm, (List.mem_filter.mp hcm).1, hlabel⟩⟩

end

/-! ## A run -/

def runA : String := "7d444840-9dc0-11d1-b245-5ffdce74fad2"

def runB : String := "67e55044-10b1-426f-9247-bb680e5fe0c8"

def buildNode : NodeInfo where
  name := "build"
  image := "alpine"
  steps := ["make"]
  dependencies := []
  timeoutSecs := none
  startupTimeoutSecs := none
  checkout := false
  env := ∅
  envSecrets := []
  fileSecrets := []
  privileged := false
  cacheSize := none
  cpu := none
  memory := none
  volumes := ∅

/-- A node is dispatched, the runs are listed, and another run is cleaned up. -/
def busy : List (Act Empty Fortune Happening) :=
  [.outside (.begin (.dispatch runA ⟨"acme", "site", "c0ffee", none, none, none, none, "push"⟩ buildNode)),
    .answer 0 (.url "https://s3/status"), .answer 0 (.url "https://s3/logs"), .answer 0 .served, .answer 0 .served,
    .outside (.begin .listManagedRunIds), .answer 1 .served, .answer 1 .served,
    .outside (.begin (.cleanupRun runB)), .answer 2 .served]

def listsRunA (σ : NamespaceConfig) : Bool :=
  match (σ.procs[1]? : Option (Option (Prog Operation NamespaceResp (Option Outcome)))) with
  | some (some (.ret .listManagedRunIds (some (.listed (.ok ids))))) => decide (ids = {runA})
  | _ => false

theorem exists_busy : ∃ h σ, Run (dispatchers sampleDigest).step BlankNamespace h σ ∧
    (∀ op ∈ begun h, ∀ runId ∈ op.runId, runId = runA ∨ runId = runB) ∧ listsRunA σ = true := by
  have hblank : BlankNamespace ⟨.empty, []⟩ := rfl
  obtain ⟨h, σ, hr, hcheck⟩ := exists_run (dispatchers sampleDigest).step busy hblank
    (fun r => (begun r.1).all (fun op => op.runId.all fun runId => decide (runId = runA ∨ runId = runB)) && listsRunA r.2)
    (by decide +kernel)
  obtain ⟨hbegun, hlists⟩ := Bool.and_eq_true_iff.mp hcheck
  refine ⟨h, σ, hr, fun op hop runId hrun => ?_, hlists⟩
  have hop' := List.all_eq_true.mp hbegun op hop
  rw [show op.runId = some runId from hrun] at hop'
  exact of_decide_eq_true hop'

theorem identified_samples {ops : List Operation} (h : ∀ op ∈ ops, ∀ runId ∈ op.runId, runId = runA ∨ runId = runB) :
    Identified sampleDigest ops := by
  have huuid : UuidText runA ∧ UuidText runB := by
    constructor
    · exact ⟨by decide +kernel, by decide +kernel⟩
    · exact ⟨by decide +kernel, by decide +kernel⟩
  have hhash : sampleDigest runA ≠ sampleDigest runB := by decide +kernel
  constructor
  · intro op hop runId hrun
    rcases h op hop runId hrun with rfl | rfl
    · exact huuid.1
    · exact huuid.2
  · intro op hop op' hop' runId hrun runId' hrun' heq
    rcases h op hop runId hrun with rfl | rfl <;> rcases h op' hop' runId' hrun' with rfl | rfl
    · rfl
    · exact absurd heq hhash
    · exact absurd heq.symm hhash
    · rfl

theorem runs_kept_apart_busy : ∃ h σ, Run (dispatchers sampleDigest).step BlankNamespace h σ ∧
    Owned sampleDigest (begun h) σ.world ∧ KeptApart h := by
  obtain ⟨h, σ, hr, hbegun, -⟩ := exists_busy
  exact ⟨h, σ, hr, runs_kept_apart sampleDigest_hex hr (identified_samples hbegun)⟩

theorem listed_runs_busy : ∃ (h : List NamespaceStep) (σ : NamespaceConfig) (i : Nat) (ids : Finset String),
    Run (dispatchers sampleDigest).step BlankNamespace h σ ∧
    σ.procs[i]? = some (some (.ret .listManagedRunIds (some (.listed (.ok ids))))) ∧ runA ∈ ids ∧
    ∀ runId ∈ ids, ∃ t ∈ h, t.before.world.HasJobOf runId ∨ t.before.world.HasConfigMapOf runId := by
  obtain ⟨h, σ, hr, -, hlists⟩ := exists_busy
  rw [listsRunA] at hlists
  split at hlists
  · rename_i ids hend
    obtain rfl := of_decide_eq_true hlists
    obtain ⟨before, t, since, rfl, -, -, hfound⟩ := listed_runs hr hend
    refine ⟨_, σ, 1, {runA}, hr, hend, Finset.mem_singleton_self _, fun runId hmem => ?_⟩
    obtain ⟨t', ht', hhas⟩ := hfound runId hmem
    exact ⟨t', by simp [ht'], hhas⟩
  · cases hlists

end Jefferies.Dispatching

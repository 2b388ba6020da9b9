import Jefferies.Collections.Paths
import Jefferies.Pipelines.Validate

/-!
# The volumes of a node's pod

A node's pod mounts what every pod needs and the volumes that the node declares. The validators compare mount paths
as texts; they keep the node's volumes away from the pod's own, and apart from each other, where the paths are
spelled canonically.
-/

namespace Jefferies.Dispatching

open Pipelines

structure VolumeMount where
  name : String
  mountPath : String
  subPath : Option String

inductive VolumeSource where
  | emptyDir (medium sizeLimit : Option String)
  | configMap (name : String) (defaultMode : Nat)

structure Volume where
  name : String
  source : VolumeSource

/-- What `build_job` says of volumes: the mounts of the init container and of the node's, and the pod's volumes. -/
structure PodVolumes where
  initMounts : List VolumeMount
  mounts : List VolumeMount
  volumes : List Volume

def cacheMountPath : String := "/tmp/cache"

/-- The node's volumes are taken in the order of their names. -/
def appendUserVolumes (userVolumes : HashMap String String) (mounts : List VolumeMount) (volumes : List Volume) :
    List VolumeMount × List Volume :=
  (HashMap.sortedList userVolumes.keys).foldl
    (fun (mounts, volumes) name =>
      (mounts ++ [⟨name, (userVolumes.lookup name).getD "", none⟩], volumes ++ [⟨name, .emptyDir none none⟩]))
    (mounts, volumes)

/-- The mounts that `build_job` starts with. -/
def ownMounts : List VolumeMount :=
  [⟨"tube-bin", "/shared", none⟩, ⟨"workspace", "/workspace", none⟩,
    ⟨"user-script", "/etc/conn/script.sh", some "script.sh"⟩]

/-- The volumes that `build_job` starts with. -/
def ownVolumes (cmName : String) : List Volume :=
  [⟨"tube-bin", .emptyDir none none⟩, ⟨"workspace", .emptyDir none none⟩, ⟨"user-script", .configMap cmName 0o755⟩]

def cacheMounts (cacheSize : Option String) : List VolumeMount :=
  match cacheSize with
  | some _ => [⟨"cache", cacheMountPath, none⟩]
  | none => []

def cacheVolumes (cacheSize : Option String) : List Volume :=
  match cacheSize with
  | some cacheSize => [⟨"cache", .emptyDir (some "Memory") (some cacheSize)⟩]
  | none => []

/-- The part of `build_job` that is about volumes. -/
def buildJobVolumes (cmName : String) (node : NodeInfo) : PodVolumes :=
  let (mounts, volumes) := appendUserVolumes node.volumes (ownMounts ++ cacheMounts node.cacheSize)
    (ownVolumes cmName ++ cacheVolumes node.cacheSize)
  ⟨[⟨"tube-bin", "/shared", none⟩], mounts, volumes⟩

/-! ## What is mounted -/

def userMount (userVolumes : HashMap String String) (name : String) : VolumeMount :=
  ⟨name, (userVolumes.lookup name).getD "", none⟩

theorem appendUserVolumes_eq (userVolumes : HashMap String String) (mounts : List VolumeMount) (volumes : List Volume) :
    appendUserVolumes userVolumes mounts volumes =
      (mounts ++ (HashMap.sortedList userVolumes.keys).map (userMount userVolumes),
        volumes ++ (HashMap.sortedList userVolumes.keys).map fun name => ⟨name, .emptyDir none none⟩) := by
  rw [appendUserVolumes]
  generalize HashMap.sortedList userVolumes.keys = names
  induction names generalizing mounts volumes with
  | nil => simp
  | cons name names ih =>
      rw [List.foldl_cons, ih]
      simp [userMount]

variable {cmName : String} {node : NodeInfo}

theorem buildJobVolumes_mounts : (buildJobVolumes cmName node).mounts = ownMounts ++ cacheMounts node.cacheSize ++
    (HashMap.sortedList node.volumes.keys).map (userMount node.volumes) := by
  simp only [buildJobVolumes, appendUserVolumes_eq]

/-- The names of the pod's own volumes. -/
def ownNames (cacheSize : Option String) : List String :=
  ["tube-bin", "workspace", "user-script"] ++ if cacheSize.isSome then ["cache"] else []

theorem ownNames_subset (cacheSize : Option String) : ∀ name ∈ ownNames cacheSize, name ∈ reservedVolumeNames := by
  cases cacheSize <;> simp [ownNames, reservedVolumeNames]

theorem ownNames_nodup (cacheSize : Option String) : (ownNames cacheSize).Nodup := by
  cases cacheSize <;> simp [ownNames]

theorem ownMounts_names (cacheSize : Option String) :
    (ownMounts ++ cacheMounts cacheSize).map VolumeMount.name = ownNames cacheSize := by
  cases cacheSize <;> rfl

theorem buildJobVolumes_names : (buildJobVolumes cmName node).volumes.map Volume.name =
    ownNames node.cacheSize ++ HashMap.sortedList node.volumes.keys := by
  have hown : (ownVolumes cmName ++ cacheVolumes node.cacheSize).map Volume.name = ownNames node.cacheSize := by
    cases node.cacheSize <;> rfl
  simp only [buildJobVolumes, appendUserVolumes_eq]
  rw [List.map_append, hown, List.map_map]
  congr 1
  exact List.map_id _

theorem buildJobVolumes_mountNames : (buildJobVolumes cmName node).mounts.map VolumeMount.name =
    (buildJobVolumes cmName node).volumes.map Volume.name := by
  rw [buildJobVolumes_mounts, buildJobVolumes_names, List.map_append, ownMounts_names, List.map_map]
  congr 1
  exact List.map_id _

theorem buildJobVolumes_declared : ∀ mount ∈ (buildJobVolumes cmName node).initMounts ++ (buildJobVolumes cmName node).mounts,
    mount.name ∈ (buildJobVolumes cmName node).volumes.map Volume.name := by
  intro mount hmount
  rcases List.mem_append.mp hmount with hinit | hmain
  · have hname : mount.name = "tube-bin" := by
      rw [List.mem_singleton.mp hinit]
    rw [buildJobVolumes_names, hname]
    exact List.mem_append_left _ List.mem_cons_self
  · rw [← buildJobVolumes_mountNames]
    exact List.mem_map_of_mem hmain

/-- A mount of a volume that the node declares is the mount it declares. -/
theorem mem_userMounts {mount : VolumeMount} (hreserved : ∀ name ∈ node.volumes.keys, name ∉ reservedVolumeNames) :
    mount ∈ (buildJobVolumes cmName node).mounts ∧ mount.name ∈ node.volumes.keys ↔
      ∃ path, node.volumes.lookup mount.name = some path ∧ mount = ⟨mount.name, path, none⟩ := by
  rw [buildJobVolumes_mounts, List.mem_append]
  constructor
  · rintro ⟨hown | huser, hkey⟩
    · have hname : mount.name ∈ ownNames node.cacheSize := by
        rw [← ownMounts_names]
        exact List.mem_map_of_mem hown
      exact absurd (ownNames_subset _ _ hname) (hreserved _ hkey)
    · obtain ⟨name, hname, rfl⟩ := List.mem_map.mp huser
      obtain ⟨path, hpath⟩ := HashMap.mem_keys_iff_lookup.mp (HashMap.mem_sortedList.mp hname)
      exact ⟨path, hpath, by simp [userMount, hpath]⟩
  · rintro ⟨path, hpath, hmount⟩
    have hkey : mount.name ∈ node.volumes.keys := HashMap.mem_keys_iff_lookup.mpr ⟨path, hpath⟩
    refine ⟨.inr ?_, hkey⟩
    rw [hmount]
    refine List.mem_map.mpr ⟨mount.name, HashMap.mem_sortedList.mpr hkey, ?_⟩
    simp [userMount, hpath]

/-! ## What acceptance says -/

/-- What `validate_volumes` finds of a node's volumes, as they are met. -/
structure VolumesAccepted (seenPaths : List String) (volumes : List (String × String)) : Prop where
  names : ∀ v ∈ volumes, v.1 ∉ reservedVolumeNames
  reserved : ∀ v ∈ volumes, ∀ r ∈ reservedMountPaths, isReservedPath v.2 r = false
  seen : ∀ v ∈ volumes, v.2 ∉ seenPaths
  distinct : (volumes.map Prod.snd).Nodup

theorem validateNodeVolumes_ok {name : String} {volumes : List (String × String)} {seenPaths : List String}
    (h : validateNodeVolumes name seenPaths volumes = .ok ()) : VolumesAccepted seenPaths volumes := by
  induction volumes generalizing seenPaths with
  | nil => exact ⟨by simp, by simp, by simp, by simp⟩
  | cons v volumes ih =>
      obtain ⟨volume, mountPath⟩ := v
      simp only [validateNodeVolumes] at h
      split at h
      · cases h
      split at h
      · cases h
      split at h
      · cases h
      split at h
      · cases h
      split at h
      · cases h
      rename_i _ hname _ hpath hseen
      have hrest := ih h
      constructor
      · intro v hv
        rcases List.mem_cons.mp hv with rfl | hv
        · exact hname
        · exact hrest.names v hv
      · intro v hv
        rcases List.mem_cons.mp hv with rfl | hv
        · simpa using hpath
        · exact hrest.reserved v hv
      · intro v hv
        rcases List.mem_cons.mp hv with rfl | hv
        · exact hseen
        · exact fun hmem => hrest.seen v hv (List.mem_cons_of_mem _ hmem)
      · rw [List.map_cons, List.nodup_cons]
        refine ⟨fun hmem => ?_, hrest.distinct⟩
        obtain ⟨v, hv, he⟩ := List.mem_map.mp hmem
        apply hrest.seen v hv
        rw [he]
        exact List.mem_cons_self

section Accepted

variable {serde : String → Except String Pipeline} {order : HashMap.IterOrder String String} {yaml : String}
  {pipeline : Pipeline}

theorem volumesAccepted (h : Pipeline.fromYaml serde order yaml = .ok pipeline) {node : PipelineNode}
    (hnode : node ∈ pipeline.nodes) : VolumesAccepted [] (order.entries node.volumes) :=
  validateNodeVolumes_ok (forM_ok (fromYaml_ok h).2.2.2.2.1 node hnode)

/-! ## Overlapping mounts -/

/-- The volumes of a pod have names of their own and all mounts are of them; as places, the node's mounts overlap
none of the pod's own and differ from each other. -/
structure PodVolumes.Safe (pod : PodVolumes) (userVolumes : HashMap String String) : Prop where
  names : (pod.volumes.map Volume.name).Nodup
  declared : ∀ mount ∈ pod.initMounts ++ pod.mounts, mount.name ∈ pod.volumes.map Volume.name
  reserved : ∀ mount ∈ pod.mounts, mount.name ∈ userVolumes.keys →
    ∀ r ∈ reservedMountPaths, ¬(place mount.mountPath).Overlap (place r)
  distinct : ∀ mount ∈ pod.mounts, ∀ mount' ∈ pod.mounts, mount.name ∈ userVolumes.keys →
    mount'.name ∈ userVolumes.keys → mount.name ≠ mount'.name → place mount.mountPath ≠ place mount'.mountPath

/-- The mount paths of a node pass the validators in their canonical spelling. -/
structure PassCanonically (userVolumes : HashMap String String) : Prop where
  reserved : ∀ name path, userVolumes.lookup name = some path →
    ∀ r ∈ reservedMountPaths, isReservedPath (canonical path) r = false
  distinct : ∀ name path name' path', userVolumes.lookup name = some path → userVolumes.lookup name' = some path' →
    name ≠ name' → canonical path ≠ canonical path'

/-- Where the candidate is spelled canonically, the validator's test is exact. -/
theorem isReservedPath_canonical {path r : String} (hr : r ∈ reservedMountPaths) :
    isReservedPath (canonical path) r = true ↔ (place path).Overlap (place r) := by
  have hcanonical : canonical r = r := by
    revert r
    decide
  rw [← canonical_overlap, hcanonical, isReservedPath]
  simp [or_assoc]

theorem volumeNames_free (h : Pipeline.fromYaml serde order yaml = .ok pipeline) {node : PipelineNode}
    (hnode : node ∈ pipeline.nodes) : ∀ name ∈ node.volumes.keys, name ∉ reservedVolumeNames := by
  intro name hname
  obtain ⟨path, hpath⟩ := HashMap.mem_keys_iff_lookup.mp hname
  exact (volumesAccepted h hnode).names (name, path) (order.mem_entries.mpr hpath)

/-- The pod of an accepted node is safe just where its mount paths pass in their canonical spelling. -/
theorem safe_iff_passCanonically (h : Pipeline.fromYaml serde order yaml = .ok pipeline) {node : PipelineNode}
    (hnode : node ∈ pipeline.nodes) (cmName : String) :
    (buildJobVolumes cmName (pipeline.infoOf node)).Safe node.volumes ↔ PassCanonically node.volumes := by
  have hfree := volumeNames_free h hnode
  have hmounts : ∀ mount : VolumeMount, mount ∈ (buildJobVolumes cmName (pipeline.infoOf node)).mounts ∧
      mount.name ∈ node.volumes.keys ↔
        ∃ path, node.volumes.lookup mount.name = some path ∧ mount = ⟨mount.name, path, none⟩ :=
    fun mount => mem_userMounts hfree
  have hmount : ∀ name path, node.volumes.lookup name = some path →
      (⟨name, path, none⟩ : VolumeMount) ∈ (buildJobVolumes cmName (pipeline.infoOf node)).mounts ∧
        name ∈ node.volumes.keys := fun name path hpath => (hmounts ⟨name, path, none⟩).mpr ⟨path, hpath, rfl⟩
  constructor
  · intro hsafe
    constructor
    · intro name path hpath r hr
      obtain ⟨hmem, hkey⟩ := hmount name path hpath
      rw [← Bool.not_eq_true, isReservedPath_canonical hr]
      exact hsafe.reserved _ hmem hkey r hr
    · intro name path name' path' hpath hpath' hne
      obtain ⟨hmem, hkey⟩ := hmount name path hpath
      obtain ⟨hmem', hkey'⟩ := hmount name' path' hpath'
      rw [Ne, canonical_eq_iff]
      exact hsafe.distinct _ hmem _ hmem' hkey hkey' hne
  · intro hpass
    constructor
    · rw [buildJobVolumes_names, List.nodup_append]
      refine ⟨ownNames_nodup _, HashMap.nodup_sortedList _, ?_⟩
      rintro name hown _ huser rfl
      exact hfree name (HashMap.mem_sortedList.mp huser) (ownNames_subset _ _ hown)
    · exact buildJobVolumes_declared
    · intro mount hmem hkey r hr
      obtain ⟨path, hpath, he⟩ := (hmounts mount).mp ⟨hmem, hkey⟩
      rw [he, ← isReservedPath_canonical hr, Bool.not_eq_true]
      exact hpass.reserved _ _ hpath r hr
    · intro mount hmem mount' hmem' hkey hkey' hne
      obtain ⟨path, hpath, he⟩ := (hmounts mount).mp ⟨hmem, hkey⟩
      obtain ⟨path', hpath', he'⟩ := (hmounts mount').mp ⟨hmem', hkey'⟩
      rw [he, he', Ne, ← canonical_eq_iff]
      exact hpass.distinct _ _ _ _ hpath hpath' hne

/-- An accepted node whose mount paths are spelled canonically passes, and its pod is safe. -/
theorem passCanonically_of_canonical (h : Pipeline.fromYaml serde order yaml = .ok pipeline) {node : PipelineNode}
    (hnode : node ∈ pipeline.nodes)
    (hcanonical : ∀ name path, node.volumes.lookup name = some path → canonical path = path) :
    PassCanonically node.volumes := by
  have haccepted := volumesAccepted h hnode
  constructor
  · intro name path hpath r hr
    rw [hcanonical name path hpath]
    exact haccepted.reserved (name, path) (order.mem_entries.mpr hpath) r hr
  · intro name path name' path' hpath hpath' hne
    rw [hcanonical name path hpath, hcanonical name' path' hpath']
    rintro rfl
    apply hne
    have hentry := order.mem_entries.mpr hpath
    have hentry' := order.mem_entries.mpr hpath'
    exact (Prod.mk.inj (List.inj_on_of_nodup_map haccepted.distinct hentry hentry' rfl)).1

end Accepted

/-- A node that mounts a volume over the parent of a reserved directory. -/
def mountsEtc : PipelineNode := { PipelineNode.plain "build" [] with volumes := Finmap.singleton "data" "/etc/" }

/-- The document that declares it. -/
def mountsEtcYaml : String :=
  "name: ci\nnodes:\n- name: build\n  steps: [make]\n  volumes:\n    data: /etc/\n"

theorem mountsEtc_accepted : Pipeline.fromYaml (reads mountsEtcYaml (.plain "ci" [mountsEtc])) .sorted mountsEtcYaml =
    .ok (.plain "ci" [mountsEtc]) := by
  simp only [Pipeline.fromYaml, reads, if_true]
  rfl

theorem safe_iff_passCanonically_etc :
    (buildJobVolumes "run-1-build-script" ((Pipeline.plain "ci" [mountsEtc]).infoOf mountsEtc)).Safe mountsEtc.volumes ↔
      PassCanonically mountsEtc.volumes :=
  safe_iff_passCanonically mountsEtc_accepted List.mem_cons_self _

/-- The validators accept `/etc/`, which contains the mount of the node's script. -/
theorem mountsEtc_unsafe :
    Pipeline.fromYaml (reads mountsEtcYaml (.plain "ci" [mountsEtc])) .sorted mountsEtcYaml =
        .ok (.plain "ci" [mountsEtc]) ∧
      ¬(buildJobVolumes "run-1-build-script" ((Pipeline.plain "ci" [mountsEtc]).infoOf mountsEtc)).Safe
        mountsEtc.volumes := by
  refine ⟨mountsEtc_accepted, fun hsafe => ?_⟩
  have hmount : (⟨"data", "/etc/", none⟩ : VolumeMount) ∈
      (buildJobVolumes "run-1-build-script" ((Pipeline.plain "ci" [mountsEtc]).infoOf mountsEtc)).mounts ∧
        "data" ∈ ((Pipeline.plain "ci" [mountsEtc]).infoOf mountsEtc).volumes.keys :=
    (mem_userMounts (volumeNames_free mountsEtc_accepted List.mem_cons_self)).mpr ⟨"/etc/", rfl, rfl⟩
  exact hsafe.reserved _ hmount.1 hmount.2 "/etc/conn" (by decide) (.inl (by decide))

end Jefferies.Dispatching

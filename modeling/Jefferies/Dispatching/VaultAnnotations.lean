import Jefferies.Collections.Ascii
import Jefferies.Collections.Ordered
import Jefferies.Collections.Paths
import Jefferies.Pipelines.Validate

/-!
# The Vault annotations of a node's pod

Each secret of a node is asked for by a few annotations, whose keys end with an id made from the kind and the name
of the secret. The names that the validators accept make good keys but for an underscore at the end, and a secret is
rendered to the place it declares; that two secrets declare one place is not excluded for custom paths.
-/

namespace Jefferies.Dispatching

open Pipelines

def vaultSecretsMountPath : String := "/etc/tube/secrets"

def vaultEnvSubdir : String := "env"

def vaultFilesSubdir : String := "files"

def repoSlugSeparator : String := "__"

def vaultEnvUniquePrefix : String := "env-"

def vaultFileUniquePrefix : String := "f-"

def repoSlug (owner repo : String) : String := owner ++ repoSlugSeparator ++ repo

def vaultSecretPath (owner repo : String) : String := "secret/data/" ++ repoSlug owner repo

def vaultRole (owner repo : String) : String := repoSlug owner repo

def vaultTemplate (owner repo key : String) : String :=
  "\x7b\x7b- with secret \"" ++ vaultSecretPath owner repo ++ "\" -\x7d\x7d\n  \x7b\x7b index .Data.data \"" ++ key ++
    "\" \x7d\x7d\n\x7b\x7b- end -\x7d\x7d"

def splitCustomPath (path : String) : String × String :=
  match rsplitOnce path '/' with
  | some (dir, base) => if dir = "" then ("/", base) else (dir, base)
  | none => ("", path)

/-- What is inserted for one environment secret. -/
def envAnnotations (owner repo key : String) : List (String × String) :=
  let id := vaultEnvUniquePrefix ++ key
  [("vault.hashicorp.com/agent-inject-secret-" ++ id, vaultSecretPath owner repo),
    ("vault.hashicorp.com/agent-inject-template-" ++ id, vaultTemplate owner repo key),
    ("vault.hashicorp.com/agent-inject-file-" ++ id, vaultEnvSubdir ++ "/" ++ key)]

/-- What is inserted for one file secret. -/
def fileAnnotations (owner repo : String) (spec : FileSecretSpec) : List (String × String) :=
  let id := vaultFileUniquePrefix ++ spec.name
  [("vault.hashicorp.com/agent-inject-secret-" ++ id, vaultSecretPath owner repo),
    ("vault.hashicorp.com/agent-inject-template-" ++ id, vaultTemplate owner repo spec.name)] ++
  match spec.path with
  | none => [("vault.hashicorp.com/agent-inject-file-" ++ id, vaultFilesSubdir ++ "/" ++ spec.name)]
  | some custom =>
      let (dir, basename) := splitCustomPath custom
      [("vault.hashicorp.com/secret-volume-path-" ++ id, dir), ("vault.hashicorp.com/agent-inject-file-" ++ id, basename)]

/-- What is inserted where there is a secret at all. -/
def globalAnnotations (owner repo : String) : List (String × String) :=
  [("vault.hashicorp.com/agent-inject", "true"), ("vault.hashicorp.com/agent-pre-populate-only", "true"),
    ("vault.hashicorp.com/secret-volume-path", vaultSecretsMountPath), ("vault.hashicorp.com/role", vaultRole owner repo)]

def vaultAnnotations (envSecrets : List String) (fileSecrets : List FileSecretSpec) (owner repo : String) :
    BTreeMap String :=
  if envSecrets.isEmpty && fileSecrets.isEmpty then []
  else
    let out := BTreeMap.insertAll [] (globalAnnotations owner repo)
    let out := envSecrets.foldl (fun out key => out.insertAll (envAnnotations owner repo key)) out
    fileSecrets.foldl (fun out spec => out.insertAll (fileAnnotations owner repo spec)) out

/-! ## Keys -/

/-- What an annotation of a secret is about. -/
inductive Aspect where
  | secret
  | template
  | file
  | volumePath
  deriving DecidableEq

def Aspect.stem : Aspect → String
  | .secret => "agent-inject-secret-"
  | .template => "agent-inject-template-"
  | .file => "agent-inject-file-"
  | .volumePath => "secret-volume-path-"

/-- The domain of all keys. -/
def vaultDomain : String := "vault.hashicorp.com/"

def Aspect.key (self : Aspect) (id : String) : String := vaultDomain ++ (self.stem ++ id)

theorem Aspect.key_inj {a a' : Aspect} {id id' : String} (h : a.key id = a'.key id') : a = a' ∧ id = id' := by
  have hstem : a.stem.toList ++ id.toList = a'.stem.toList ++ id'.toList := by
    have hlist := congrArg String.toList h
    simpa [Aspect.key] using hlist
  cases a <;> cases a' <;> simp [Aspect.stem] at hstem ⊢
  all_goals exact String.toList_inj.mp hstem

theorem Aspect.key_not_global {a : Aspect} {id owner repo : String} :
    a.key id ∉ (globalAnnotations owner repo).map Prod.fst := by
  intro hmem
  have hlist : (a.key id).toList ∈ ((globalAnnotations owner repo).map Prod.fst).map String.toList :=
    List.mem_map_of_mem hmem
  cases a <;> simp [globalAnnotations, Aspect.key, Aspect.stem, vaultDomain] at hlist

/-! ## The secrets of a node -/

inductive NodeSecret where
  | env (name : String)
  | file (spec : FileSecretSpec)
  deriving DecidableEq

namespace NodeSecret

def name : NodeSecret → String
  | .env name => name
  | .file spec => spec.name

def uniquePrefix : NodeSecret → String
  | .env _ => vaultEnvUniquePrefix
  | .file _ => vaultFileUniquePrefix

/-- What the keys of the secret's annotations end with. -/
def id (self : NodeSecret) : String := self.uniquePrefix ++ self.name

/-- The annotations that are inserted for the secret. -/
def annotations (owner repo : String) : NodeSecret → List (String × String)
  | .env name => envAnnotations owner repo name
  | .file spec => fileAnnotations owner repo spec

variable {owner repo : String}

/-- What the secret's annotations are about. -/
def aspects : NodeSecret → List Aspect
  | .env _ => [.secret, .template, .file]
  | .file spec => if spec.path.isSome then [.secret, .template, .volumePath, .file] else [.secret, .template, .file]

theorem aspects_nodup (s : NodeSecret) : s.aspects.Nodup := by
  cases s with
  | env name => simp [aspects]
  | file spec =>
      rw [aspects]
      split <;> simp

theorem annotations_keys (s : NodeSecret) :
    (s.annotations owner repo).map Prod.fst = s.aspects.map fun a => a.key s.id := by
  cases s with
  | env name => rfl
  | file spec =>
      obtain ⟨name, path⟩ := spec
      cases path with
      | none => rfl
      | some custom => rfl

theorem annotations_key {s : NodeSecret} {e : String × String} (h : e ∈ s.annotations owner repo) :
    ∃ a ∈ s.aspects, e.1 = a.key s.id := by
  have hkey : e.1 ∈ (s.annotations owner repo).map Prod.fst := List.mem_map_of_mem h
  rw [annotations_keys] at hkey
  obtain ⟨a, ha, he⟩ := List.mem_map.mp hkey
  exact ⟨a, ha, he.symm⟩

end NodeSecret

/-- The secrets of a node, as its dispatch goes through them. -/
def nodeSecrets (info : NodeInfo) : List NodeSecret := info.envSecrets.map .env ++ info.fileSecrets.map .file

theorem vaultAnnotations_eq (info : NodeInfo) (owner repo : String) :
    vaultAnnotations info.envSecrets info.fileSecrets owner repo =
      if nodeSecrets info = [] then []
      else BTreeMap.insertAll [] (globalAnnotations owner repo ++ (nodeSecrets info).flatMap (NodeSecret.annotations owner repo)) := by
  have hempty : (info.envSecrets.isEmpty && info.fileSecrets.isEmpty) = true ↔ nodeSecrets info = [] := by
    simp [nodeSecrets]
  have henv : (info.envSecrets.map NodeSecret.env).flatMap (NodeSecret.annotations owner repo) =
      info.envSecrets.flatMap (envAnnotations owner repo) := by rw [List.flatMap_map]; rfl
  have hfile : (info.fileSecrets.map NodeSecret.file).flatMap (NodeSecret.annotations owner repo) =
      info.fileSecrets.flatMap (fileAnnotations owner repo) := by rw [List.flatMap_map]; rfl
  simp only [vaultAnnotations, hempty, BTreeMap.insertAll_flatMap]
  rw [nodeSecrets, List.flatMap_append, henv, hfile, ← List.append_assoc, BTreeMap.insertAll_append,
    BTreeMap.insertAll_append]

/-! ## Accepted secrets -/

/-- What the validators require of a secret's name. -/
structure SecretName (name : String) : Prop where
  nonempty : name ≠ ""
  length_le : name.length ≤ maxSecretNameLen
  chars : ∀ c ∈ name.toList, c.isAlphanum = true ∨ c = '_'

theorem rejectSecret_ok {node name : String} {violation : Option String} (h : rejectSecret node name violation = .ok ()) :
    violation = none := by
  cases violation with
  | none => rfl
  | some reason => cases h

theorem isValidEnvVarName_bytes {s : String} (h : isValidEnvVarName s = true) :
    ∀ b ∈ bytes s, (isAsciiAlphanumeric b || b = 95) = true := by
  rw [isValidEnvVarName] at h
  split at h
  · cases h
  · rename_i b rest hbytes
    rw [Bool.and_eq_true, List.all_eq_true] at h
    intro b' hb'
    rw [hbytes] at hb'
    rcases List.mem_cons.mp hb' with rfl | hb'
    · have hfirst := h.1
      rw [Bool.or_eq_true] at hfirst ⊢
      rcases hfirst with halpha | hscore
      · exact .inl (by simp [isAsciiAlphanumeric, halpha])
      · exact .inr hscore
    · exact h.2 b' hb'

theorem nameByte_lt {b : UInt8} (h : (isAsciiAlphanumeric b || b = 95) = true) : b < 128 := by
  simp only [isAsciiAlphanumeric, isAsciiAlphabetic, isAsciiLowercase, isAsciiUppercase, isAsciiDigit, Bool.or_eq_true,
    Bool.and_eq_true, decide_eq_true_eq, UInt8.le_iff_toNat_le, ← UInt8.toNat_inj] at h
  rw [UInt8.lt_iff_toNat_lt]
  simp at h ⊢
  omega

theorem secretName_of_accepted {name : String} (h : secretNameViolation name = none) : SecretName name := by
  unfold secretNameViolation at h
  split at h
  · cases h
  split at h
  · cases h
  split at h
  · cases h
  rename_i hempty hlen hvalid
  have hbytes := isValidEnvVarName_bytes (by simpa using hvalid)
  obtain ⟨hascii, hchars⟩ := (all_bytes (p := fun b => isAsciiAlphanumeric b || b = 95) (fun _ => nameByte_lt)).mp hbytes
  constructor
  · rintro rfl
    exact hempty rfl
  · rw [← hascii.length]
    omega
  · intro c hc
    have hb := hchars c hc
    rw [Bool.or_eq_true, isAsciiAlphanumeric_toUInt8 (hascii c hc), decide_eq_true_eq] at hb
    rcases hb with halnum | hscore
    · exact .inl halnum
    · exact .inr ((toUInt8_eq_iff (hascii c hc) (by decide)).mp hscore)

section Accepted

variable {serde : String → Except String Pipeline} {order : HashMap.IterOrder String String} {yaml : String}
  {pipeline : Pipeline} {node : PipelineNode}

theorem mergeFileSecrets_names (pipelineFiles nodeFiles : List FileSecret) :
    ((mergeFileSecrets pipelineFiles nodeFiles).map FileSecretSpec.name).Nodup := by
  let step := fun (byName : BTreeMap FileSecretSpec) (file : FileSecret) =>
    BTreeMap.insert file.name (⟨file.name, file.path⟩ : FileSecretSpec) byName
  have hkept : ∀ (files : List FileSecret) (m : BTreeMap FileSecretSpec), (m.Ascending ∧ ∀ e ∈ m, e.2.name = e.1) →
      (files.foldl step m).Ascending ∧ ∀ e ∈ files.foldl step m, e.2.name = e.1 := by
    intro files
    induction files with
    | nil => exact fun m hm => hm
    | cons file files ih =>
        intro m hm
        exact ih _ ⟨hm.1.insert _ _, BTreeMap.forall_mem_insert hm.2 rfl⟩
  obtain ⟨hasc, hnames⟩ := hkept (pipelineFiles ++ nodeFiles) [] ⟨List.Pairwise.nil, by simp⟩
  have hkeys : (mergeFileSecrets pipelineFiles nodeFiles).map FileSecretSpec.name =
      ((pipelineFiles ++ nodeFiles).foldl step []).keys := by
    rw [mergeFileSecrets, List.map_map, BTreeMap.keys]
    apply List.map_congr_left
    intro e he
    exact hnames e he
  rw [hkeys]
  exact hasc.nodup

theorem accepted_secret (h : Pipeline.fromYaml serde order yaml = .ok pipeline) (hnode : node ∈ pipeline.nodes) :
    ∀ s ∈ nodeSecrets (pipeline.infoOf node), SecretName s.name := by
  have hsecrets := forM_ok (fromYaml_ok h).2.2.2.2.2 node hnode
  obtain ⟨_, henv, hfiles⟩ := except_bind_ok hsecrets
  intro s hs
  rcases List.mem_append.mp hs with hs | hs
  · obtain ⟨name, hname, rfl⟩ := List.mem_map.mp hs
    exact secretName_of_accepted (rejectSecret_ok (forM_ok henv name hname))
  · obtain ⟨spec, hspec, rfl⟩ := List.mem_map.mp hs
    obtain ⟨_, hname, _⟩ := except_bind_ok (forM_ok hfiles spec hspec)
    exact secretName_of_accepted (rejectSecret_ok hname)

theorem accepted_path (h : Pipeline.fromYaml serde order yaml = .ok pipeline) (hnode : node ∈ pipeline.nodes) :
    ∀ spec ∈ (pipeline.infoOf node).fileSecrets, ∀ path ∈ spec.path, fileSecretPathViolation path = none := by
  have hsecrets := forM_ok (fromYaml_ok h).2.2.2.2.2 node hnode
  obtain ⟨_, _, hfiles⟩ := except_bind_ok hsecrets
  intro spec hspec path hpath
  obtain ⟨_, _, hviolation⟩ := except_bind_ok (forM_ok hfiles spec hspec)
  have hnone := rejectSecret_ok hviolation
  rw [Option.mem_def.mp hpath] at hnone
  exact hnone

/-- Two secrets with one id are one secret. -/
theorem nodeSecret_id_inj {s s' : NodeSecret} (hs : s ∈ nodeSecrets (pipeline.infoOf node))
    (hs' : s' ∈ nodeSecrets (pipeline.infoOf node)) (h : s.id = s'.id) : s = s' := by
  have hlist := congrArg String.toList h
  rcases List.mem_append.mp hs with hs | hs
  · obtain ⟨name, _, rfl⟩ := List.mem_map.mp hs
    rcases List.mem_append.mp hs' with hs' | hs'
    · obtain ⟨name', _, rfl⟩ := List.mem_map.mp hs'
      simp [NodeSecret.id, NodeSecret.uniquePrefix, NodeSecret.name] at hlist
      rw [String.toList_inj.mp hlist]
    · obtain ⟨spec, _, rfl⟩ := List.mem_map.mp hs'
      simp [NodeSecret.id, NodeSecret.uniquePrefix, vaultEnvUniquePrefix, vaultFileUniquePrefix] at hlist
  · obtain ⟨spec, hspec, rfl⟩ := List.mem_map.mp hs
    rcases List.mem_append.mp hs' with hs' | hs'
    · obtain ⟨name', _, rfl⟩ := List.mem_map.mp hs'
      simp [NodeSecret.id, NodeSecret.uniquePrefix, vaultEnvUniquePrefix, vaultFileUniquePrefix] at hlist
    · obtain ⟨spec', hspec', rfl⟩ := List.mem_map.mp hs'
      simp [NodeSecret.id, NodeSecret.uniquePrefix, NodeSecret.name] at hlist
      have hname := String.toList_inj.mp hlist
      rw [List.inj_on_of_nodup_map (mergeFileSecrets_names _ _) hspec hspec' hname]

end Accepted

/-! ## Valid keys -/

/-- The name of an annotation as Kubernetes has it. -/
structure AnnotationName (name : String) : Prop where
  length_le : name.length ≤ 63
  chars : ∀ c ∈ name.toList, c.isAlphanum = true ∨ c = '-' ∨ c = '_' ∨ c = '.'
  first : ∃ c ∈ name.toList.head?, c.isAlphanum = true
  last : ∃ c ∈ name.toList.getLast?, c.isAlphanum = true

/-- A key of the domain whose name is valid. -/
def ValidKey (key : String) : Prop := ∃ name, key = vaultDomain ++ name ∧ AnnotationName name

theorem validKey_iff {name : String} : ValidKey (vaultDomain ++ name) ↔ AnnotationName name := by
  constructor
  · rintro ⟨name', he, h⟩
    have hlist := congrArg String.toList he
    rw [String.toList_append, String.toList_append, List.append_cancel_left_eq] at hlist
    rwa [String.toList_inj.mp hlist]
  · exact fun h => ⟨name, rfl, h⟩

/-- What stands before a secret's name in a key. -/
def Aspect.lead (self : Aspect) (s : NodeSecret) : String := self.stem ++ s.uniquePrefix

theorem Aspect.stem_chars (a : Aspect) :
    a.stem.toList.length ≤ 22 ∧ (∀ c ∈ a.stem.toList, c.isAlphanum = true ∨ c = '-') ∧
      ∃ c ∈ a.stem.toList.head?, c.isAlphanum = true := by
  cases a <;> simp [Aspect.stem, Char.isAlphanum, Char.isAlpha, Char.isLower]

theorem NodeSecret.uniquePrefix_chars (s : NodeSecret) :
    s.uniquePrefix.toList.length ≤ 4 ∧ ∀ c ∈ s.uniquePrefix.toList, c.isAlphanum = true ∨ c = '-' := by
  cases s <;>
    simp [NodeSecret.uniquePrefix, vaultEnvUniquePrefix, vaultFileUniquePrefix, Char.isAlphanum, Char.isAlpha,
      Char.isLower]

theorem Aspect.lead_chars (a : Aspect) (s : NodeSecret) :
    (a.lead s).length ≤ 26 ∧ (∀ c ∈ (a.lead s).toList, c.isAlphanum = true ∨ c = '-') ∧
      ∃ c ∈ (a.lead s).toList.head?, c.isAlphanum = true := by
  obtain ⟨hstem, hchars, c, hc, hfirst⟩ := a.stem_chars
  obtain ⟨hlen, hstart⟩ := s.uniquePrefix_chars
  have hlead : (a.lead s).toList = a.stem.toList ++ s.uniquePrefix.toList := String.toList_append
  rw [← String.length_toList, hlead, List.length_append]
  refine ⟨by omega, ?_, c, ?_, hfirst⟩
  · simpa [or_imp, forall_and] using ⟨hchars, hstart⟩
  · rw [List.head?_append, Option.mem_def.mp hc]
    rfl

/-- A key of a secret is valid just where the secret's name does not end with an underscore. -/
theorem validKey_key {s : NodeSecret} (h : SecretName s.name) (a : Aspect) :
    ValidKey (a.key s.id) ↔ s.name.toList.getLast? ≠ some '_' := by
  have hname : s.name.toList ≠ [] := by
    intro hnil
    exact h.nonempty (String.toList_eq_nil_iff.mp hnil)
  have hkey : (a.stem ++ s.id).toList = (a.lead s).toList ++ s.name.toList := by
    simp [Aspect.lead, NodeSecret.id]
  obtain ⟨hlen, hlead, hfirst⟩ := a.lead_chars s
  rw [Aspect.key, validKey_iff]
  constructor
  · intro hvalid hlast
    obtain ⟨c, hc, halnum⟩ := hvalid.last
    rw [hkey, List.getLast?_append_of_ne_nil _ hname, hlast] at hc
    cases hc
    exact absurd halnum (by decide)
  · intro hlast
    constructor
    · have hle := h.length_le
      rw [← String.length_toList] at hle hlen ⊢
      rw [hkey, List.length_append]
      simp only [maxSecretNameLen] at hle
      omega
    · intro c hc
      rw [hkey] at hc
      rcases List.mem_append.mp hc with hc | hc
      · rcases hlead c hc with halnum | hdash
        · exact .inl halnum
        · exact .inr (.inl hdash)
      · rcases h.chars c hc with halnum | hscore
        · exact .inl halnum
        · exact .inr (.inr (.inl hscore))
    · obtain ⟨c, hc, halnum⟩ := hfirst
      refine ⟨c, ?_, halnum⟩
      rw [hkey, List.head?_append, Option.mem_def.mp hc]
      rfl
    · obtain ⟨c, hc⟩ := Option.isSome_iff_exists.mp (List.getLast?_isSome.mpr hname)
      refine ⟨c, ?_, ?_⟩
      · rw [hkey, List.getLast?_append_of_ne_nil _ hname]
        exact hc
      · rcases h.chars c (List.mem_of_getLast? hc) with halnum | rfl
        · exact halnum
        · exact absurd hc hlast

theorem globalAnnotations_valid (owner repo : String) : ∀ e ∈ globalAnnotations owner repo, ValidKey e.1 := by
  have hname : ∀ name ∈ ["agent-inject", "agent-pre-populate-only", "secret-volume-path", "role"], AnnotationName name := by
    intro name hname
    simp only [List.mem_cons, List.not_mem_nil, or_false] at hname
    rcases hname with rfl | rfl | rfl | rfl <;> constructor <;>
      simp [← String.length_toList, Char.isAlphanum, Char.isAlpha, Char.isLower]
  intro e he
  simp only [globalAnnotations, List.mem_cons, List.not_mem_nil, or_false] at he
  rcases he with rfl | rfl | rfl | rfl
  · exact ⟨"agent-inject", rfl, hname _ (by simp)⟩
  · exact ⟨"agent-pre-populate-only", rfl, hname _ (by simp)⟩
  · exact ⟨"secret-volume-path", rfl, hname _ (by simp)⟩
  · exact ⟨"role", rfl, hname _ (by simp)⟩

section Accepted

variable {serde : String → Except String Pipeline} {order : HashMap.IterOrder String String} {yaml : String}
  {pipeline : Pipeline} {node : PipelineNode}

theorem mem_vaultAnnotations {info : NodeInfo} {owner repo key : String} :
    key ∈ BTreeMap.keys (vaultAnnotations info.envSecrets info.fileSecrets owner repo) ↔
      nodeSecrets info ≠ [] ∧ (key ∈ (globalAnnotations owner repo).map Prod.fst ∨
        ∃ s ∈ nodeSecrets info, key ∈ (s.annotations owner repo).map Prod.fst) := by
  rw [vaultAnnotations_eq]
  split
  · rename_i hnone
    simp [hnone, BTreeMap.keys]
  · rename_i hsome
    rw [BTreeMap.mem_keys_insertAll, List.map_append, List.mem_append, List.map_flatMap, List.mem_flatMap]
    simp [hsome, BTreeMap.keys]

/-- The keys of different secrets differ. -/
theorem annotations_disjoint {owner repo : String} {s s' : NodeSecret} (hs : s ∈ nodeSecrets (pipeline.infoOf node))
    (hs' : s' ∈ nodeSecrets (pipeline.infoOf node)) (hne : s ≠ s') :
    List.Disjoint ((s.annotations owner repo).map Prod.fst) ((s'.annotations owner repo).map Prod.fst) := by
  intro key hkey hkey'
  obtain ⟨e, he, rfl⟩ := List.mem_map.mp hkey
  obtain ⟨e', he', hsame⟩ := List.mem_map.mp hkey'
  obtain ⟨a, -, ha⟩ := NodeSecret.annotations_key he
  obtain ⟨a', -, ha'⟩ := NodeSecret.annotations_key he'
  rw [ha, ha'] at hsame
  exact hne (nodeSecret_id_inj hs hs' (Aspect.key_inj hsame).2.symm)

/-- All keys are valid, and different secrets have different ones. -/
structure GoodAnnotations (info : NodeInfo) (owner repo : String) : Prop where
  valid : ∀ key ∈ BTreeMap.keys (vaultAnnotations info.envSecrets info.fileSecrets owner repo), ValidKey key
  disjoint : ∀ s ∈ nodeSecrets info, ∀ s' ∈ nodeSecrets info, s ≠ s' →
    List.Disjoint ((s.annotations owner repo).map Prod.fst) ((s'.annotations owner repo).map Prod.fst)

/-- The annotations of an accepted node are good just where no name of a secret ends with an underscore. -/
theorem goodAnnotations_iff (h : Pipeline.fromYaml serde order yaml = .ok pipeline) (hnode : node ∈ pipeline.nodes)
    (owner repo : String) : GoodAnnotations (pipeline.infoOf node) owner repo ↔
      (∀ name ∈ (pipeline.infoOf node).envSecrets, name.toList.getLast? ≠ some '_') ∧
        ∀ spec ∈ (pipeline.infoOf node).fileSecrets, spec.name.toList.getLast? ≠ some '_' := by
  have hnames := accepted_secret h hnode
  have hsecrets : (∀ s ∈ nodeSecrets (pipeline.infoOf node), s.name.toList.getLast? ≠ some '_') ↔
      (∀ name ∈ (pipeline.infoOf node).envSecrets, name.toList.getLast? ≠ some '_') ∧
        ∀ spec ∈ (pipeline.infoOf node).fileSecrets, spec.name.toList.getLast? ≠ some '_' := by
    rw [nodeSecrets, List.forall_mem_append, List.forall_mem_map, List.forall_mem_map]
    rfl
  rw [← hsecrets]
  constructor
  · intro hgood s hs
    have hkey : Aspect.secret.key s.id ∈ (s.annotations owner repo).map Prod.fst := by
      cases s with
      | env name => exact List.mem_cons_self
      | file spec => exact List.mem_cons_self
    have hvalid := hgood.valid _ (mem_vaultAnnotations.mpr ⟨List.ne_nil_of_mem hs, .inr ⟨s, hs, hkey⟩⟩)
    exact (validKey_key (hnames s hs) _).mp hvalid
  · intro hlast
    refine ⟨?_, fun s hs s' hs' hne => annotations_disjoint hs hs' hne⟩
    intro key hkey
    obtain ⟨-, hglobal | ⟨s, hs, hkey⟩⟩ := mem_vaultAnnotations.mp hkey
    · obtain ⟨e, he, rfl⟩ := List.mem_map.mp hglobal
      exact globalAnnotations_valid owner repo e he
    · obtain ⟨e, he, rfl⟩ := List.mem_map.mp hkey
      obtain ⟨a, -, ha⟩ := NodeSecret.annotations_key he
      rw [ha]
      exact (validKey_key (hnames s hs) a).mpr (hlast s hs)

end Accepted

/-- A node with a secret named `_`. -/
def underscored : PipelineNode := { PipelineNode.plain "build" [] with secrets := ⟨["_"], []⟩ }

/-- The document that declares it. -/
def underscoredYaml : String := "name: ci\nnodes:\n- name: build\n  steps: [make]\n  secrets:\n    env: [_]\n"

theorem underscored_accepted : Pipeline.fromYaml (reads underscoredYaml (.plain "ci" [underscored])) .sorted
    underscoredYaml = .ok (.plain "ci" [underscored]) := by
  simp only [Pipeline.fromYaml, reads, if_true]
  rfl

theorem goodAnnotations_iff_underscored :
    GoodAnnotations ((Pipeline.plain "ci" [underscored]).infoOf underscored) "the-conn" "jefferies" ↔
      (∀ name ∈ ((Pipeline.plain "ci" [underscored]).infoOf underscored).envSecrets,
          name.toList.getLast? ≠ some '_') ∧
        ∀ spec ∈ ((Pipeline.plain "ci" [underscored]).infoOf underscored).fileSecrets,
          spec.name.toList.getLast? ≠ some '_' :=
  goodAnnotations_iff underscored_accepted List.mem_cons_self _ _

/-- The validators accept a secret named `_`, and no key made from it is valid. -/
theorem underscored_invalid :
    Pipeline.fromYaml (reads underscoredYaml (.plain "ci" [underscored])) .sorted underscoredYaml =
        .ok (.plain "ci" [underscored]) ∧
      ¬GoodAnnotations ((Pipeline.plain "ci" [underscored]).infoOf underscored) "the-conn" "jefferies" := by
  refine ⟨underscored_accepted, fun hgood => ?_⟩
  have hs : NodeSecret.env "_" ∈ nodeSecrets ((Pipeline.plain "ci" [underscored]).infoOf underscored) := by
    exact List.mem_cons_self
  have hvalid := hgood.valid (Aspect.secret.key (NodeSecret.env "_").id)
    (mem_vaultAnnotations.mpr ⟨List.ne_nil_of_mem hs, .inr ⟨_, hs, List.mem_cons_self⟩⟩)
  exact (validKey_key (accepted_secret underscored_accepted List.mem_cons_self _ hs) _).mp hvalid rfl

end Jefferies.Dispatching

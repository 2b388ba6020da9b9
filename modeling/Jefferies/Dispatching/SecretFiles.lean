import Jefferies.Dispatching.VaultAnnotations

/-!
# The files of a node's secrets

The agent renders a secret to the file that its annotations name, below the secret's own directory or the pod's. For
an accepted node that is the file which the secret declares, and two secrets share one where custom paths collide.
-/

namespace Jefferies.Dispatching

open Pipelines

/-- A file in a directory. -/
def joinPath (dir file : String) : String := if endsWith dir "/" then dir ++ file else dir ++ "/" ++ file

/-- The file to which the agent renders the secret with the id. -/
def renderedFile (annotations : BTreeMap String) (id : String) : Option String := do
  let dir ← (annotations.lookup ("vault.hashicorp.com/secret-volume-path-" ++ id)).or
    (annotations.lookup "vault.hashicorp.com/secret-volume-path")
  let file ← annotations.lookup ("vault.hashicorp.com/agent-inject-file-" ++ id)
  return joinPath dir file

/-- The file that a secret declares. -/
def NodeSecret.declared : NodeSecret → String
  | .env name => "/etc/tube/secrets/env/" ++ name
  | .file spec => spec.path.getD ("/etc/tube/secrets/files/" ++ spec.name)

theorem NodeSecret.declared_env (name : String) : (NodeSecret.env name).declared = "/etc/tube/secrets/env/" ++ name := rfl

theorem NodeSecret.declared_default (name : String) :
    (NodeSecret.file ⟨name, none⟩).declared = "/etc/tube/secrets/files/" ++ name := rfl

theorem NodeSecret.declared_custom (name path : String) : (NodeSecret.file ⟨name, some path⟩).declared = path := rfl

/-! ## Splitting and joining -/

theorem joinPath_mount (file : String) : joinPath vaultSecretsMountPath file = vaultSecretsMountPath ++ "/" ++ file := by
  rw [joinPath, if_neg]
  decide

/-- Joining undoes the splitting of an accepted path. -/
theorem joinPath_splitCustomPath {path : String} (h : fileSecretPathViolation path = none) :
    joinPath (splitCustomPath path).1 (splitCustomPath path).2 = path := by
  unfold fileSecretPathViolation at h
  split at h
  · cases h
  split at h
  · cases h
  split at h
  · cases h
  rename_i habsolute _ hdouble
  have hslash : '/' ∈ path.toList := by
    have hstart : ['/'] <+: path.toList := by simpa [startsWith] using habsolute
    exact hstart.subset List.mem_cons_self
  obtain ⟨dir, base, hsplit, htext, -⟩ := rsplitOnce_spec hslash
  rw [splitCustomPath, hsplit]
  by_cases hdir : dir = ""
  · subst hdir
    simp only [↓reduceIte]
    rw [← String.toList_inj, htext]
    simp [joinPath, endsWith]
  · have hend : endsWith dir "/" = false := by
      rw [← Bool.not_eq_true]
      intro hend
      obtain ⟨front, hfront⟩ : ['/'] <:+ dir.toList := by simpa [endsWith] using hend
      apply hdouble
      rw [containsText, decide_eq_true_eq]
      refine ⟨front, base.toList, ?_⟩
      rw [htext, ← hfront]
      simp
    simp only [if_neg hdir, joinPath, hend]
    rw [← String.toList_inj, htext]
    simp

/-! ## What the annotations say -/

section Lookup

variable {pipeline : Pipeline} {node : PipelineNode} {owner repo : String} {s : NodeSecret}

/-- What is inserted for a secret is what the annotations say. -/
theorem lookup_vaultAnnotations (hs : s ∈ nodeSecrets (pipeline.infoOf node)) {e : String × String}
    (he : e ∈ s.annotations owner repo) :
    (vaultAnnotations (pipeline.infoOf node).envSecrets (pipeline.infoOf node).fileSecrets owner repo).lookup e.1 =
      some e.2 := by
  obtain ⟨a, -, ha⟩ := NodeSecret.annotations_key he
  rw [vaultAnnotations_eq, if_neg (List.ne_nil_of_mem hs)]
  apply BTreeMap.lookup_insertAll (List.mem_append_right _ (List.mem_flatMap.mpr ⟨s, hs, he⟩))
  intro value hvalue
  rcases List.mem_append.mp hvalue with hglobal | hsecret
  · rw [ha] at hglobal
    exact absurd (List.mem_map_of_mem hglobal) Aspect.key_not_global
  · obtain ⟨s', hs', he'⟩ := List.mem_flatMap.mp hsecret
    obtain ⟨a', -, ha'⟩ := NodeSecret.annotations_key he'
    have hsame := nodeSecret_id_inj hs hs' (Aspect.key_inj (ha.symm.trans ha')).2
    subst hsame
    have hnodup : ((s.annotations owner repo).map Prod.fst).Nodup := by
      rw [NodeSecret.annotations_keys]
      exact s.aspects_nodup.map fun _ _ h => (Aspect.key_inj h).1
    exact congrArg Prod.snd (List.inj_on_of_nodup_map hnodup he' he rfl)

/-- Of what a secret's annotations are not about, nothing is said. -/
theorem lookup_vaultAnnotations_none (hs : s ∈ nodeSecrets (pipeline.infoOf node)) {a : Aspect} (ha : a ∉ s.aspects) :
    (vaultAnnotations (pipeline.infoOf node).envSecrets (pipeline.infoOf node).fileSecrets owner repo).lookup (a.key s.id) =
      none := by
  rw [vaultAnnotations_eq, if_neg (List.ne_nil_of_mem hs), BTreeMap.lookup_insertAll_of_notMem]
  · rfl
  · rw [List.map_append, List.mem_append, not_or]
    refine ⟨Aspect.key_not_global, ?_⟩
    intro hmem
    obtain ⟨e, he, hkey⟩ := List.mem_map.mp hmem
    obtain ⟨s', hs', he⟩ := List.mem_flatMap.mp he
    obtain ⟨a', ha', hkey'⟩ := NodeSecret.annotations_key he
    obtain ⟨rfl, hid⟩ := Aspect.key_inj (hkey.symm.trans hkey')
    have hsame := nodeSecret_id_inj hs hs' hid
    subst hsame
    exact ha ha'

theorem lookup_secretVolumePath (hs : s ∈ nodeSecrets (pipeline.infoOf node)) :
    (vaultAnnotations (pipeline.infoOf node).envSecrets (pipeline.infoOf node).fileSecrets owner repo).lookup
      "vault.hashicorp.com/secret-volume-path" = some vaultSecretsMountPath := by
  rw [vaultAnnotations_eq, if_neg (List.ne_nil_of_mem hs)]
  apply BTreeMap.lookup_insertAll (List.mem_append_left _ (by simp [globalAnnotations]))
  intro value hvalue
  rcases List.mem_append.mp hvalue with hglobal | hsecret
  · simpa [globalAnnotations] using hglobal
  · obtain ⟨s', _, he'⟩ := List.mem_flatMap.mp hsecret
    obtain ⟨a', -, ha'⟩ := NodeSecret.annotations_key he'
    have hkey : a'.key s'.id ∈ (globalAnnotations owner repo).map Prod.fst := by
      rw [← ha']
      simp [globalAnnotations]
    exact absurd hkey Aspect.key_not_global

end Lookup

theorem renderedFile_eq {m : BTreeMap String} {id dir file : String}
    (hdir : (m.lookup (Aspect.volumePath.key id)).or (m.lookup "vault.hashicorp.com/secret-volume-path") = some dir)
    (hfile : m.lookup (Aspect.file.key id) = some file) : renderedFile m id = some (joinPath dir file) := by
  have hdirKey : "vault.hashicorp.com/secret-volume-path-" ++ id = Aspect.volumePath.key id := by
    simp [Aspect.key, Aspect.stem, vaultDomain, ← String.append_assoc]
  have hfileKey : "vault.hashicorp.com/agent-inject-file-" ++ id = Aspect.file.key id := by
    simp [Aspect.key, Aspect.stem, vaultDomain, ← String.append_assoc]
  rw [renderedFile, hdirKey, hfileKey, hdir, hfile]
  rfl

section Accepted

variable {serde : String → Except String Pipeline} {order : HashMap.IterOrder String String} {yaml : String}
  {pipeline : Pipeline} {node : PipelineNode}

/-- Each secret is rendered to the file that it declares. -/
theorem renderedFile_declared (h : Pipeline.fromYaml serde order yaml = .ok pipeline) (hnode : node ∈ pipeline.nodes)
    (owner repo : String) {s : NodeSecret} (hs : s ∈ nodeSecrets (pipeline.infoOf node)) :
    renderedFile (vaultAnnotations (pipeline.infoOf node).envSecrets (pipeline.infoOf node).fileSecrets owner repo) s.id =
      some s.declared := by
  generalize hm : vaultAnnotations _ _ owner repo = m
  have hmount : m.lookup "vault.hashicorp.com/secret-volume-path" = some vaultSecretsMountPath := by
    rw [← hm]
    exact lookup_secretVolumePath hs
  have hown : ∀ e ∈ s.annotations owner repo, m.lookup e.1 = some e.2 := by
    rw [← hm]
    exact fun e he => lookup_vaultAnnotations hs he
  have hnone : ∀ a ∉ s.aspects, m.lookup (a.key s.id) = none := by
    rw [← hm]
    exact fun a ha => lookup_vaultAnnotations_none hs ha
  cases s with
  | env name =>
      have hdir : (m.lookup (Aspect.volumePath.key (NodeSecret.env name).id)).or
          (m.lookup "vault.hashicorp.com/secret-volume-path") = some vaultSecretsMountPath := by
        rw [hnone .volumePath (by simp [NodeSecret.aspects])]
        exact hmount
      have hfile : m.lookup (Aspect.file.key (NodeSecret.env name).id) = some (vaultEnvSubdir ++ "/" ++ name) :=
        hown (_, _) (.tail _ (.tail _ (.head _)))
      rw [renderedFile_eq hdir hfile, joinPath_mount, NodeSecret.declared_env, ← String.append_assoc, ← String.append_assoc]
      rfl
  | file spec =>
      obtain ⟨name, path⟩ := spec
      cases path with
      | none =>
          have hdir : (m.lookup (Aspect.volumePath.key (NodeSecret.file ⟨name, none⟩).id)).or
              (m.lookup "vault.hashicorp.com/secret-volume-path") = some vaultSecretsMountPath := by
            rw [hnone .volumePath (by simp [NodeSecret.aspects])]
            exact hmount
          have hfile : m.lookup (Aspect.file.key (NodeSecret.file ⟨name, none⟩).id) =
              some (vaultFilesSubdir ++ "/" ++ name) := hown (_, _) (.tail _ (.tail _ (.head _)))
          rw [renderedFile_eq hdir hfile, joinPath_mount, NodeSecret.declared_default, ← String.append_assoc,
            ← String.append_assoc]
          rfl
      | some custom =>
          have hdir : (m.lookup (Aspect.volumePath.key (NodeSecret.file ⟨name, some custom⟩).id)).or
              (m.lookup "vault.hashicorp.com/secret-volume-path") = some (splitCustomPath custom).1 := by
            have hlookup : m.lookup (Aspect.volumePath.key (NodeSecret.file ⟨name, some custom⟩).id) =
                some (splitCustomPath custom).1 := hown (_, _) (.tail _ (.tail _ (.head _)))
            rw [hlookup]
            rfl
          have hfile : m.lookup (Aspect.file.key (NodeSecret.file ⟨name, some custom⟩).id) =
              some (splitCustomPath custom).2 := hown (_, _) (.tail _ (.tail _ (.tail _ (.head _))))
          have hspec : (⟨name, some custom⟩ : FileSecretSpec) ∈ (pipeline.infoOf node).fileSecrets := by
            simpa [nodeSecrets] using hs
          rw [renderedFile_eq hdir hfile, joinPath_splitCustomPath (accepted_path h hnode _ hspec _ rfl)]
          rfl

/-! ## One file for each secret -/

/-- A file in a directory, named by a secret. -/
theorem place_named {dir name : String} (h : SecretName name) : place (dir ++ "/" ++ name) = place dir ++ [name.toList] := by
  have hfree : ∀ c, c ≠ '_' → c.isAlphanum = false → c ∉ name.toList := by
    intro c hscore halnum hc
    rcases h.chars c hc with hc | hc
    · rw [halnum] at hc
      cases hc
    · exact hscore hc
  have hslash : '/' ∉ name.toList := hfree '/' (by decide) (by decide)
  have hdot : '.' ∉ name.toList := hfree '.' (by decide) (by decide)
  have hne : name.toList ≠ [] := fun hnil => h.nonempty (String.toList_eq_nil_iff.mp hnil)
  have hone : name.toList ≠ ['.'] := fun he => hdot (by simp [he])
  have htwo : name.toList ≠ ['.', '.'] := fun he => hdot (by simp [he])
  rw [place_append, segments, List.splitOn_eq_singleton hslash]
  simp [Place.follow, hne, hone, htwo]

theorem place_env {name : String} (h : SecretName (NodeSecret.env name).name) : place (NodeSecret.env name).declared =
    [['e', 't', 'c'], ['t', 'u', 'b', 'e'], ['s', 'e', 'c', 'r', 'e', 't', 's'], ['e', 'n', 'v'], name.toList] := by
  have hdir : "/etc/tube/secrets/env/" ++ name = "/etc/tube/secrets/env" ++ "/" ++ name := by
    simp
  have hname : SecretName name := h
  rw [NodeSecret.declared_env, hdir, place_named hname]
  rfl

theorem place_default {name : String} (h : SecretName (NodeSecret.file ⟨name, none⟩).name) : place (NodeSecret.file ⟨name, none⟩).declared =
    [['e', 't', 'c'], ['t', 'u', 'b', 'e'], ['s', 'e', 'c', 'r', 'e', 't', 's'], ['f', 'i', 'l', 'e', 's'], name.toList] := by
  have hdir : "/etc/tube/secrets/files/" ++ name = "/etc/tube/secrets/files" ++ "/" ++ name := by
    simp
  have hname : SecretName name := h
  rw [NodeSecret.declared_default, hdir, place_named hname]
  rfl

/-- Each secret is rendered to the file it declares, and to one of its own. -/
structure OwnFiles (info : NodeInfo) (owner repo : String) : Prop where
  declared : ∀ s ∈ nodeSecrets info,
    renderedFile (vaultAnnotations info.envSecrets info.fileSecrets owner repo) s.id = some s.declared
  distinct : ∀ s ∈ nodeSecrets info, ∀ s' ∈ nodeSecrets info, s ≠ s' → ∀ file file',
    renderedFile (vaultAnnotations info.envSecrets info.fileSecrets owner repo) s.id = some file →
    renderedFile (vaultAnnotations info.envSecrets info.fileSecrets owner repo) s'.id = some file' → place file ≠ place file'

/-- The custom paths lead to different places, and to none where another secret is by default. -/
structure CustomPathsApart (info : NodeInfo) : Prop where
  custom : ∀ spec ∈ info.fileSecrets, ∀ spec' ∈ info.fileSecrets, spec ≠ spec' →
    ∀ path ∈ spec.path, ∀ path' ∈ spec'.path, place path ≠ place path'
  env : ∀ spec ∈ info.fileSecrets, ∀ path ∈ spec.path, ∀ name ∈ info.envSecrets,
    place path ≠ place ("/etc/tube/secrets/env/" ++ name)
  files : ∀ spec ∈ info.fileSecrets, ∀ path ∈ spec.path, ∀ spec' ∈ info.fileSecrets, spec'.path = none →
    place path ≠ place ("/etc/tube/secrets/files/" ++ spec'.name)

theorem mem_envSecrets {info : NodeInfo} {name : String} : NodeSecret.env name ∈ nodeSecrets info ↔ name ∈ info.envSecrets := by
  simp [nodeSecrets]

theorem mem_fileSecrets {info : NodeInfo} {spec : FileSecretSpec} :
    NodeSecret.file spec ∈ nodeSecrets info ↔ spec ∈ info.fileSecrets := by
  simp [nodeSecrets]

/-- What different secrets declare leads to different places. -/
theorem CustomPathsApart.declared {info : NodeInfo} (h : CustomPathsApart info)
    (hnames : ∀ s ∈ nodeSecrets info, SecretName s.name) {s s' : NodeSecret} (hs : s ∈ nodeSecrets info)
    (hs' : s' ∈ nodeSecrets info) (hne : s ≠ s') : place s.declared ≠ place s'.declared := by
  have hname := hnames s hs
  have hname' := hnames s' hs'
  cases s with
  | env name =>
      cases s' with
      | env name' =>
          rw [place_env hname, place_env hname']
          intro he
          apply hne
          simp only [List.cons.injEq, true_and, and_true] at he
          rw [String.toList_inj.mp he]
      | file spec' =>
          obtain ⟨name', path'⟩ := spec'
          cases path' with
          | none =>
              rw [place_env hname, place_default hname']
              simp
          | some custom' =>
              exact (h.env _ (mem_fileSecrets.mp hs') custom' rfl name (mem_envSecrets.mp hs)).symm
  | file spec =>
      obtain ⟨name, path⟩ := spec
      cases s' with
      | env name' =>
          cases path with
          | none =>
              rw [place_env hname', place_default hname]
              simp
          | some custom => exact h.env _ (mem_fileSecrets.mp hs) custom rfl name' (mem_envSecrets.mp hs')
      | file spec' =>
          obtain ⟨name', path'⟩ := spec'
          cases path with
          | none =>
              cases path' with
              | none =>
                  rw [place_default hname, place_default hname']
                  intro he
                  apply hne
                  simp only [List.cons.injEq, true_and, and_true] at he
                  rw [String.toList_inj.mp he]
              | some custom' =>
                  exact (h.files _ (mem_fileSecrets.mp hs') custom' rfl _ (mem_fileSecrets.mp hs) rfl).symm
          | some custom =>
              cases path' with
              | none => exact h.files _ (mem_fileSecrets.mp hs) custom rfl _ (mem_fileSecrets.mp hs') rfl
              | some custom' =>
                  refine h.custom _ (mem_fileSecrets.mp hs) _ (mem_fileSecrets.mp hs') ?_ custom rfl custom' rfl
                  intro he
                  exact hne (congrArg NodeSecret.file he)

/-- The secrets of an accepted node have files of their own just where its custom paths are apart. -/
theorem ownFiles_iff (h : Pipeline.fromYaml serde order yaml = .ok pipeline) (hnode : node ∈ pipeline.nodes)
    (owner repo : String) : OwnFiles (pipeline.infoOf node) owner repo ↔ CustomPathsApart (pipeline.infoOf node) := by
  have hdeclared := fun s hs => renderedFile_declared h hnode owner repo (s := s) hs
  constructor
  · intro hown
    have hapart : ∀ s ∈ nodeSecrets (pipeline.infoOf node), ∀ s' ∈ nodeSecrets (pipeline.infoOf node), s ≠ s' →
        place s.declared ≠ place s'.declared :=
      fun s hs s' hs' hne => hown.distinct s hs s' hs' hne _ _ (hdeclared s hs) (hdeclared s' hs')
    constructor
    · rintro ⟨name, _⟩ hspec ⟨name', _⟩ hspec' hne path rfl path' rfl
      have hfiles := hapart (.file _) (mem_fileSecrets.mpr hspec) (.file _) (mem_fileSecrets.mpr hspec')
        fun he => hne (NodeSecret.file.inj he)
      rwa [NodeSecret.declared_custom, NodeSecret.declared_custom] at hfiles
    · rintro ⟨name, _⟩ hspec path rfl env henv
      have hfiles := hapart (.file _) (mem_fileSecrets.mpr hspec) (.env env) (mem_envSecrets.mpr henv) (by simp)
      rwa [NodeSecret.declared_custom, NodeSecret.declared_env] at hfiles
    · rintro ⟨name, _⟩ hspec path rfl ⟨name', _⟩ hspec' rfl
      have hfiles := hapart (.file _) (mem_fileSecrets.mpr hspec) (.file _) (mem_fileSecrets.mpr hspec') (by simp)
      rwa [NodeSecret.declared_custom, NodeSecret.declared_default] at hfiles
  · intro hapart
    refine ⟨hdeclared, ?_⟩
    intro s hs s' hs' hne file file' hfile hfile'
    rw [hdeclared s hs] at hfile
    rw [hdeclared s' hs'] at hfile'
    cases hfile
    cases hfile'
    exact hapart.declared (accepted_secret h hnode) hs hs' hne

end Accepted

/-- A node with two file secrets at one path. -/
def samePath : PipelineNode :=
  { PipelineNode.plain "build" [] with secrets := ⟨[], [.custom "CERT" "/etc/pki/cert", .custom "KEY" "/etc/pki/cert"]⟩ }

/-- The document that declares it. -/
def samePathYaml : String :=
  "name: ci\nnodes:\n- name: build\n  steps: [make]\n  secrets:\n    files:\n    - name: CERT\n      path: /etc/pki/cert\n    - name: KEY\n      path: /etc/pki/cert\n"

theorem samePath_accepted : Pipeline.fromYaml (reads samePathYaml (.plain "ci" [samePath])) .sorted samePathYaml =
    .ok (.plain "ci" [samePath]) := by
  simp only [Pipeline.fromYaml, reads, if_true]
  rfl

theorem ownFiles_iff_samePath :
    OwnFiles ((Pipeline.plain "ci" [samePath]).infoOf samePath) "the-conn" "jefferies" ↔
      CustomPathsApart ((Pipeline.plain "ci" [samePath]).infoOf samePath) :=
  ownFiles_iff samePath_accepted List.mem_cons_self _ _

/-- The validators accept two file secrets that are rendered to one file. -/
theorem samePath_shared :
    Pipeline.fromYaml (reads samePathYaml (.plain "ci" [samePath])) .sorted samePathYaml =
        .ok (.plain "ci" [samePath]) ∧
      ¬OwnFiles ((Pipeline.plain "ci" [samePath]).infoOf samePath) "the-conn" "jefferies" := by
  refine ⟨samePath_accepted, fun hown => ?_⟩
  have hcert : NodeSecret.file ⟨"CERT", some "/etc/pki/cert"⟩ ∈
      nodeSecrets ((Pipeline.plain "ci" [samePath]).infoOf samePath) := by decide
  have hkey : NodeSecret.file ⟨"KEY", some "/etc/pki/cert"⟩ ∈
      nodeSecrets ((Pipeline.plain "ci" [samePath]).infoOf samePath) := by decide
  exact hown.distinct _ hcert _ hkey (by decide) _ _ (hown.declared _ hcert) (hown.declared _ hkey) rfl

end Jefferies.Dispatching

import Jefferies.Dispatching.KubeDispatcher
import Jefferies.Pipelines.Validate

/-!
# The names of a node's objects

A node's Job and ConfigMap are named by its run and by what sanitizing and shortening leave of its name. Such a
name is a DNS label where the node's name has a letter or a digit, and the names of two nodes differ where
nothing but case, punctuation and a hash is left to tell their nodes apart.
-/

namespace Jefferies.Dispatching

open Pipelines Coordination Interaction Interact

/-! ## Characters -/

def isLabelAlnum (c : Char) : Bool := c.isLower || c.isDigit

theorem isAlphanum_iff {c : Char} : c.isAlphanum = true ↔
    (65 ≤ c.toNat ∧ c.toNat ≤ 90) ∨ (97 ≤ c.toNat ∧ c.toNat ≤ 122) ∨ (48 ≤ c.toNat ∧ c.toNat ≤ 57) := by
  simp [Char.isAlphanum, Char.isAlpha, Char.isUpper, Char.isLower, Char.isDigit, UInt32.le_iff_toNat_le, or_assoc]

theorem isLabelAlnum_iff {c : Char} : isLabelAlnum c = true ↔
    (97 ≤ c.toNat ∧ c.toNat ≤ 122) ∨ (48 ≤ c.toNat ∧ c.toNat ≤ 57) := by
  simp [isLabelAlnum, Char.isLower, Char.isDigit, UInt32.le_iff_toNat_le]

theorem toNat_toLower (c : Char) :
    c.toLower.toNat = if 65 ≤ c.toNat ∧ c.toNat ≤ 90 then c.toNat + 32 else c.toNat := by
  simp only [Char.toLower, UInt32.le_iff_toNat_le, Char.toNat]
  split
  · rename_i h
    have h' : 65 ≤ c.val.toNat ∧ c.val.toNat ≤ 90 := h
    rw [if_pos h', UInt32.toNat_add]
    have hd : ('a'.val - 'A'.val).toNat = 32 := rfl
    omega
  · rename_i h
    have h' : ¬(65 ≤ c.val.toNat ∧ c.val.toNat ≤ 90) := h
    rw [if_neg h']

theorem isLabelAlnum_toLower {c : Char} (h : c.isAlphanum = true) : isLabelAlnum c.toLower = true := by
  rw [isAlphanum_iff] at h
  rw [isLabelAlnum_iff, toNat_toLower]
  split <;> omega

theorem toLower_of_isLabelAlnum {c : Char} (h : isLabelAlnum c = true) : c.toLower = c := by
  rw [isLabelAlnum_iff] at h
  rw [← Char.toNat_inj, toNat_toLower, if_neg (by omega)]

/-- Characters that sanitizing makes equal: a letter and its other case, and whatever is neither a letter nor a
digit. -/
def SameChar (c d : Char) : Prop :=
  (c.isAlphanum = true ∧ d.isAlphanum = true ∧ c.toLower = d.toLower) ∨ (c.isAlphanum = false ∧ d.isAlphanum = false)

@[simp] theorem sanitizeChar_eq_dash {c : Char} : sanitizeChar c = '-' ↔ c.isAlphanum = false := by
  cases h : c.isAlphanum with
  | false => simp [sanitizeChar, h]
  | true =>
      have hl := isLabelAlnum_toLower h
      have hne : c.toLower ≠ '-' := by
        intro he
        rw [he] at hl
        exact absurd hl (by decide)
      simp [sanitizeChar, h, hne]

theorem sanitizeChar_eq_iff {c d : Char} : sanitizeChar c = sanitizeChar d ↔ SameChar c d := by
  cases hd : d.isAlphanum with
  | false =>
      have hdash : sanitizeChar d = '-' := sanitizeChar_eq_dash.mpr hd
      rw [hdash, sanitizeChar_eq_dash]
      simp [SameChar, hd]
  | true =>
      cases hc : c.isAlphanum with
      | false =>
          have hdash : sanitizeChar c = '-' := sanitizeChar_eq_dash.mpr hc
          rw [hdash, eq_comm, sanitizeChar_eq_dash]
          simp [SameChar, hc, hd]
      | true => simp [SameChar, sanitizeChar, hc, hd]

theorem isAlphanum_of_isLabelAlnum {c : Char} (h : isLabelAlnum c = true) : c.isAlphanum = true := by
  rw [isAlphanum_iff]
  rw [isLabelAlnum_iff] at h
  omega

theorem sanitizeChar_of_isLabelAlnum {c : Char} (h : isLabelAlnum c = true) : sanitizeChar c = c := by
  rw [sanitizeChar, if_pos (isAlphanum_of_isLabelAlnum h), toLower_of_isLabelAlnum h]

theorem isLabelAlnum_sanitizeChar {c : Char} (h : c.isAlphanum = true) : isLabelAlnum (sanitizeChar c) = true := by
  rw [sanitizeChar, if_pos h]
  exact isLabelAlnum_toLower h

theorem sanitizeChar_label (c : Char) : isLabelAlnum (sanitizeChar c) = true ∨ sanitizeChar c = '-' := by
  cases h : c.isAlphanum with
  | false => exact .inr (sanitizeChar_eq_dash.mpr h)
  | true => exact .inl (isLabelAlnum_sanitizeChar h)

/-! ## The core of a name -/

/-- Without what follows the last letter or digit. -/
def trimEnd (l : List Char) : List Char := l.rdropWhile fun c => !c.isAlphanum

/-- A name from its first letter or digit to its last. -/
def core (s : String) : List Char := trimEnd (s.toList.dropWhile fun c => !c.isAlphanum)

/-- Neither end is something else than a letter or a digit. -/
structure Trimmed (l : List Char) : Prop where
  first : ∀ c ∈ l.head?, c.isAlphanum = true
  last : ∀ c ∈ l.getLast?, c.isAlphanum = true

theorem last_trimEnd (l : List Char) : ∀ c ∈ (trimEnd l).getLast?, c.isAlphanum = true := by
  intro c hc
  obtain ⟨hne, rfl⟩ := List.mem_getLast?_eq_getLast hc
  have h := List.rdropWhile_last_not (fun c : Char => !c.isAlphanum) l hne
  simpa [trimEnd] using h

theorem head?_of_start {l l' : List Char} (h : l <+: l') : ∀ c ∈ l.head?, c ∈ l'.head? := by
  intro c hc
  obtain ⟨t, rfl⟩ := h
  rw [List.head?_append]
  simp [Option.mem_def.mp hc]

theorem trimEnd_trimmed {l : List Char} (h : ∀ c ∈ l.head?, c.isAlphanum = true) : Trimmed (trimEnd l) where
  first c hc := h c (head?_of_start (List.rdropWhile_prefix _ _) c hc)
  last := last_trimEnd l

theorem core_trimmed (s : String) : Trimmed (core s) := by
  apply trimEnd_trimmed
  intro c hc
  have h := List.head?_dropWhile_not (fun c : Char => !c.isAlphanum) s.toList
  rw [Option.mem_def.mp hc] at h
  simpa using h

theorem trimEnd_ne_nil {l : List Char} : trimEnd l ≠ [] ↔ ∃ c ∈ l, c.isAlphanum = true := by
  rw [trimEnd, Ne, List.rdropWhile_eq_nil_iff]
  simp

theorem core_ne_nil {s : String} : core s ≠ [] ↔ ∃ c ∈ s.toList, c.isAlphanum = true := by
  rw [core, trimEnd_ne_nil]
  constructor
  · intro h
    obtain ⟨c, hc, halnum⟩ := h
    exact ⟨c, (List.dropWhile_sublist _).subset hc, halnum⟩
  · intro h
    obtain ⟨c, hc, halnum⟩ := h
    refine ⟨c, ?_, halnum⟩
    rw [← List.takeWhile_append_dropWhile (p := fun c : Char => !c.isAlphanum) (l := s.toList)] at hc
    rcases List.mem_append.mp hc with htake | hdrop
    · have hnot := List.mem_takeWhile_imp htake
      simp [halnum] at hnot
    · exact hdrop

theorem isDash_sanitizeChar : ((fun c : Char => decide (c = '-')) ∘ sanitizeChar) = fun c => !c.isAlphanum := by
  funext c
  rw [Function.comp_apply, Bool.eq_iff_iff]
  simp

theorem rdropWhile_map_sanitizeChar (l : List Char) :
    (l.map sanitizeChar).rdropWhile (· = '-') = (trimEnd l).map sanitizeChar := by
  rw [trimEnd, List.rdropWhile, List.rdropWhile, ← List.map_reverse, List.dropWhile_map, isDash_sanitizeChar,
    ← List.map_reverse]

theorem toList_sanitizeK8sName (s : String) : (sanitizeK8sName s).toList = (core s).map sanitizeChar := by
  rw [sanitizeK8sName, String.toList_ofList, trimDashes, List.dropWhile_map, isDash_sanitizeChar,
    rdropWhile_map_sanitizeChar, core]

/-! ## Shortening -/

/-- The digest's first bytes in lowercase hex. -/
structure HexDigest (stableHash : String → String) : Prop where
  length : ∀ s, (stableHash s).length = stableHashLen
  digits : ∀ s, ∀ c ∈ (stableHash s).toList, c.isDigit = true ∨ 'a' ≤ c ∧ c ≤ 'f'

theorem HexDigest.isLabelAlnum {stableHash : String → String} (h : HexDigest stableHash) (s : String) :
    ∀ c ∈ (stableHash s).toList, isLabelAlnum c = true := by
  intro c hc
  rw [Dispatching.isLabelAlnum, Bool.or_eq_true]
  rcases h.digits s c hc with hd | ⟨ha, hf⟩
  · exact .inr hd
  · have hz : c ≤ 'z' := le_trans hf (by decide)
    left
    simp only [Char.isLower, Bool.and_eq_true, decide_eq_true_eq]
    exact ⟨ha, hz⟩

theorem HexDigest.map_sanitizeChar {stableHash : String → String} (h : HexDigest stableHash) (s : String) :
    (stableHash s).toList.map sanitizeChar = (stableHash s).toList := by
  conv_rhs => rw [← List.map_id (stableHash s).toList]
  apply List.map_congr_left
  intro c hc
  exact sanitizeChar_of_isLabelAlnum (h.isLabelAlnum s c hc)

section Shortening

variable {stableHash : String → String}

/-- The longest core that is kept whole. -/
def keptLen (prefixLen : Nat) : Nat := prefixLen + 1 + stableHashLen

variable (stableHash) in
/-- A long core: what is left of its beginning, and the hash of the whole name. -/
def shortened (s : String) (prefixLen : Nat) : List Char :=
  trimEnd ((core s).take prefixLen) ++ '-' :: (stableHash s).toList

variable (stableHash) in
/-- The part of a name that goes into the names of its objects. -/
def kept (s : String) (prefixLen : Nat) : List Char :=
  if (core s).length ≤ keptLen prefixLen then core s else shortened stableHash s prefixLen

theorem toList_truncateWithHash (hhash : HexDigest stableHash) (s : String) (prefixLen : Nat) :
    (truncateWithHash stableHash s prefixLen).toList = (kept stableHash s prefixLen).map sanitizeChar := by
  have hlen : (sanitizeK8sName s).length = (core s).length := by
    rw [← String.length_toList, toList_sanitizeK8sName, List.length_map]
  rw [truncateWithHash, kept, keptLen]
  simp only [hlen]
  split
  · exact toList_sanitizeK8sName s
  · have hdash : sanitizeChar '-' = '-' := by decide
    rw [String.toList_append, String.toList_append, String.toList_ofList, toList_sanitizeK8sName, ← List.map_take,
      rdropWhile_map_sanitizeChar, shortened, List.map_append, List.map_cons, hhash.map_sanitizeChar, hdash]
    simp

theorem shortened_trimmed (hhash : HexDigest stableHash) {s : String} (hne : core s ≠ []) (prefixLen : Nat) :
    Trimmed (shortened stableHash s (prefixLen + 1)) := by
  obtain ⟨c, rest, hcore⟩ := List.exists_cons_of_ne_nil hne
  have hc : c.isAlphanum = true := (core_trimmed s).first c (by simp [hcore])
  have htake : (core s).take (prefixLen + 1) = c :: rest.take prefixLen := by rw [hcore, List.take_succ_cons]
  have hbegin : trimEnd ((core s).take (prefixLen + 1)) ≠ [] := by
    rw [trimEnd_ne_nil, htake]
    exact ⟨c, List.mem_cons_self, hc⟩
  have htrimmed : Trimmed (trimEnd ((core s).take (prefixLen + 1))) := by
    apply trimEnd_trimmed
    simp [htake, hc]
  constructor
  · intro d hd
    rw [shortened, List.head?_append_of_ne_nil _ hbegin] at hd
    exact htrimmed.first d hd
  · intro d hd
    have hdigest : (stableHash s).toList ≠ [] := by
      intro hnil
      have hlen := hhash.length s
      rw [← String.length_toList, hnil] at hlen
      exact absurd hlen (by decide)
    rw [shortened, List.getLast?_append_of_ne_nil _ (List.cons_ne_nil _ _), List.getLast?_cons_of_ne_nil hdigest] at hd
    exact isAlphanum_of_isLabelAlnum (hhash.isLabelAlnum s d (List.mem_of_getLast? hd))

theorem kept_trimmed (hhash : HexDigest stableHash) (s : String) (prefixLen : Nat) :
    Trimmed (kept stableHash s (prefixLen + 1)) := by
  rw [kept]
  split
  · exact core_trimmed s
  · rename_i hlong
    apply shortened_trimmed hhash
    intro hnil
    simp [hnil] at hlong

theorem kept_ne_nil {s : String} {prefixLen : Nat} :
    kept stableHash s prefixLen ≠ [] ↔ ∃ c ∈ s.toList, c.isAlphanum = true := by
  rw [← core_ne_nil, kept]
  split
  · exact Iff.rfl
  · rename_i hlong
    have hcore : core s ≠ [] := by
      intro hnil
      simp [hnil] at hlong
    simp [shortened, hcore]

theorem length_kept_le (hhash : HexDigest stableHash) (s : String) (prefixLen : Nat) :
    (kept stableHash s prefixLen).length ≤ keptLen prefixLen := by
  rw [kept]
  split
  · assumption
  · have htrim : (trimEnd ((core s).take prefixLen)).length ≤ prefixLen :=
      le_trans (List.rdropWhile_prefix _ _).length_le (List.length_take_le _ _)
    have hlen : (stableHash s).toList.length = stableHashLen := by rw [String.length_toList, hhash.length]
    rw [shortened, List.length_append, List.length_cons, hlen, keptLen]
    omega

end Shortening

/-! ## Labels -/

/-- A DNS-1123 label. -/
structure DnsLabel (s : String) : Prop where
  length_pos : 1 ≤ s.length
  length_le : s.length ≤ 63
  chars : ∀ c ∈ s.toList, isLabelAlnum c = true ∨ c = '-'
  first : ∀ c ∈ s.toList.head?, isLabelAlnum c = true
  last : ∀ c ∈ s.toList.getLast?, isLabelAlnum c = true

section Labels

variable {stableHash : String → String} (hhash : HexDigest stableHash) (runId nodeName : String)

theorem toList_configmapName : (configmapName stableHash runId nodeName).toList =
    (jobName stableHash runId nodeName).toList ++ ['-', 's', 'c', 'r', 'i', 'p', 't'] := by
  rw [configmapName, String.toList_append]
  rfl

include hhash

theorem toList_jobName : (jobName stableHash runId nodeName).toList = ['r', 'u', 'n', '-'] ++
    ((kept stableHash runId runIdPrefixLen).map sanitizeChar ++
      '-' :: (kept stableHash nodeName nodeNamePrefixLen).map sanitizeChar) := by
  simp [jobName, shortRunId, shortNodeName, toList_truncateWithHash hhash]

theorem length_jobName_le : (jobName stableHash runId nodeName).length ≤ 55 := by
  have hrun := length_kept_le hhash runId runIdPrefixLen
  have hnode := length_kept_le hhash nodeName nodeNamePrefixLen
  rw [← String.length_toList, toList_jobName hhash]
  simp only [keptLen, runIdPrefixLen, nodeNamePrefixLen, stableHashLen] at hrun hnode
  simp [runIdPrefixLen, nodeNamePrefixLen]
  omega

theorem jobName_chars : ∀ c ∈ (jobName stableHash runId nodeName).toList, isLabelAlnum c = true ∨ c = '-' := by
  have hfirst : ∀ c ∈ ['r', 'u', 'n', '-'], isLabelAlnum c = true ∨ c = '-' := by
    simp [isLabelAlnum, Char.isLower]
  have hkept : ∀ l : List Char, ∀ c ∈ l.map sanitizeChar, isLabelAlnum c = true ∨ c = '-' := by
    intro l c hc
    obtain ⟨d, _, rfl⟩ := List.mem_map.mp hc
    exact sanitizeChar_label d
  intro c hc
  rw [toList_jobName hhash] at hc
  rcases List.mem_append.mp hc with hrun | hc
  · exact hfirst c hrun
  · rcases List.mem_append.mp hc with hid | hc
    · exact hkept _ c hid
    · rcases List.mem_cons.mp hc with hdash | hnode
      · exact .inr hdash
      · exact hkept _ c hnode

theorem jobName_first : (jobName stableHash runId nodeName).toList.head? = some 'r' := by
  rw [toList_jobName hhash]
  rfl

/-- Where nothing is kept of the node's name, the Job's name ends with the dash before it. -/
theorem jobName_last : (jobName stableHash runId nodeName).toList.getLast? =
    some (((kept stableHash nodeName nodeNamePrefixLen).map sanitizeChar).getLastD '-') := by
  rw [toList_jobName hhash, List.getLast?_append_of_ne_nil _ (by simp), List.getLast?_append_of_ne_nil _ (by simp),
    List.getLast?_cons, List.getLastD_eq_getLast?]

/-- The ConfigMap's name is a label whatever the node is called. -/
theorem configmapName_label : DnsLabel (configmapName stableHash runId nodeName) := by
  have hlen : (configmapName stableHash runId nodeName).length = (jobName stableHash runId nodeName).length + 7 := by
    rw [← String.length_toList, toList_configmapName, List.length_append, String.length_toList]
    rfl
  have hjob := length_jobName_le hhash runId nodeName
  have hend : ∀ c ∈ ['-', 's', 'c', 'r', 'i', 'p', 't'], isLabelAlnum c = true ∨ c = '-' := by
    simp [isLabelAlnum, Char.isLower]
  constructor
  · omega
  · omega
  · intro c hc
    rw [toList_configmapName] at hc
    rcases List.mem_append.mp hc with hc | hc
    · exact jobName_chars hhash runId nodeName c hc
    · exact hend c hc
  · intro c hc
    rw [toList_configmapName, List.head?_append, jobName_first hhash] at hc
    cases hc
    decide
  · intro c hc
    rw [toList_configmapName, List.getLast?_append_of_ne_nil _ (by simp)] at hc
    cases hc
    decide

theorem jobName_label_iff : DnsLabel (jobName stableHash runId nodeName) ↔ ∃ c ∈ nodeName.toList, c.isAlphanum = true := by
  have hkept : kept stableHash nodeName nodeNamePrefixLen ≠ [] ↔ _ := kept_ne_nil
  rw [← hkept]
  constructor
  · intro h hnil
    have hlast := h.last '-' (by rw [jobName_last hhash, hnil]; rfl)
    exact absurd hlast (by decide)
  · intro hne
    constructor
    · have hfirst := jobName_first hhash runId nodeName
      rw [← String.length_toList]
      by_contra hlen
      have hnil : (jobName stableHash runId nodeName).toList = [] := List.length_eq_zero_iff.mp (by omega)
      rw [hnil] at hfirst
      cases hfirst
    · exact le_trans (length_jobName_le hhash runId nodeName) (by decide)
    · exact jobName_chars hhash runId nodeName
    · intro c hc
      rw [jobName_first hhash] at hc
      cases hc
      decide
    · intro c hc
      rw [jobName_last hhash] at hc
      cases hc
      rw [List.getLastD_eq_getLast?, List.getLast?_map]
      obtain ⟨d, hd⟩ := Option.isSome_iff_exists.mp (List.getLast?_isSome.mpr hne)
      rw [hd]
      exact isLabelAlnum_sanitizeChar ((kept_trimmed hhash nodeName 23).last d hd)

end Labels

/-- Both names of a node's objects are labels just where the node's name has an ASCII letter or digit. -/
theorem names_label_iff {stableHash : String → String} (hhash : HexDigest stableHash) (runId nodeName : String) :
    (DnsLabel (jobName stableHash runId nodeName) ∧ DnsLabel (configmapName stableHash runId nodeName)) ↔
      ∃ c ∈ nodeName.toList, c.isAlphanum = true := by
  rw [jobName_label_iff hhash]
  exact and_iff_left (configmapName_label hhash runId nodeName)

/-- The digests of a run's id and of some names. -/
def sampleDigest (s : String) : String :=
  if s = "7d444840-9dc0-11d1-b245-5ffdce74fad2" then "0e1ecd9a"
  else if s = "---" then "cb3f91d5"
  else if s = "a.b" then "2e7336dc"
  else "d44362d6"

theorem sampleDigest_hex : HexDigest sampleDigest := by
  have hcases : ∀ s, sampleDigest s ∈ ["0e1ecd9a", "cb3f91d5", "2e7336dc", "d44362d6"] := by
    intro s
    unfold sampleDigest
    split
    · simp
    · split
      · simp
      · split <;> simp
  have hall : ∀ d ∈ ["0e1ecd9a", "cb3f91d5", "2e7336dc", "d44362d6"],
      d.length = stableHashLen ∧ d.toList.all (fun c => c.isDigit || decide ('a' ≤ c ∧ c ≤ 'f')) = true := by
    decide
  constructor
  · intro s
    exact (hall _ (hcases s)).1
  · intro s c hc
    have h := List.all_eq_true.mp (hall _ (hcases s)).2 c hc
    simpa using h

theorem names_label_iff_dashes :
    (DnsLabel (jobName sampleDigest "7d444840-9dc0-11d1-b245-5ffdce74fad2" "---") ∧
      DnsLabel (configmapName sampleDigest "7d444840-9dc0-11d1-b245-5ffdce74fad2" "---")) ↔
      ∃ c ∈ "---".toList, c.isAlphanum = true :=
  names_label_iff sampleDigest_hex _ _

/-- A pipeline whose only node is named `---`. -/
def dashes : Pipeline := .plain "ci" [.plain "---" []]

/-- The document that declares it. -/
def dashesYaml : String := "name: ci\nnodes:\n- name: '---'\n  steps: [make]\n"

/-- The validators accept a node name that leaves a Job's name with a dash at its end. -/
theorem dashes_no_label :
    Pipeline.fromYaml (reads dashesYaml dashes) .sorted dashesYaml = .ok dashes ∧
      ¬∀ node ∈ dashes.nodes,
        DnsLabel (jobName sampleDigest "7d444840-9dc0-11d1-b245-5ffdce74fad2" node.name) ∧
          DnsLabel (configmapName sampleDigest "7d444840-9dc0-11d1-b245-5ffdce74fad2" node.name) := by
  constructor
  · simp only [Pipeline.fromYaml, reads, if_true]
    rfl
  · intro h
    have hlabel := (h (.plain "---" []) List.mem_cons_self).1
    obtain ⟨c, hc, halnum⟩ := (jobName_label_iff sampleDigest_hex _ _).mp hlabel
    have hnone : ∀ c ∈ (PipelineNode.plain "---" []).name.toList, c.isAlphanum = false := by
      simp [PipelineNode.plain]
    rw [hnone c hc] at halnum
    cases halnum

/-! ## Names apart -/

/-- Two texts that sanitizing makes equal. -/
def Alike (l l' : List Char) : Prop := List.Forall₂ SameChar l l'

theorem map_sanitizeChar_eq_iff {l l' : List Char} : l.map sanitizeChar = l'.map sanitizeChar ↔ Alike l l' := by
  rw [← List.forall₂_eq_eq_eq, List.forall₂_map_left_iff, List.forall₂_map_right_iff]
  simp only [sanitizeChar_eq_iff]
  rfl

theorem alike_symm {l l' : List Char} (h : Alike l l') : Alike l' l := by
  rw [← map_sanitizeChar_eq_iff] at h ⊢
  exact h.symm

/-- A short name reads like what is made of a long one. -/
structure Spells (stableHash : String → String) (n m : String) : Prop where
  short : (core n).length ≤ keptLen nodeNamePrefixLen
  long : keptLen nodeNamePrefixLen < (core m).length
  alike : Alike (core n) (shortened stableHash m nodeNamePrefixLen)

/-- Two short names that read alike, or a short one that spells a long one. -/
inductive Merges (stableHash : String → String) (n m : String) : Prop
  | short : (core n).length ≤ keptLen nodeNamePrefixLen → (core m).length ≤ keptLen nodeNamePrefixLen →
      Alike (core n) (core m) → Merges stableHash n m
  | spells : Spells stableHash n m → Merges stableHash n m
  | spelled : Spells stableHash m n → Merges stableHash n m

section Merging

variable {stableHash : String → String} (hhash : HexDigest stableHash) {n m : String}

include hhash

/-- What is made of a long name ends with its hash. -/
theorem shortened_alike (h : Alike (shortened stableHash n nodeNamePrefixLen) (shortened stableHash m nodeNamePrefixLen)) :
    stableHash n = stableHash m := by
  have hlen : (stableHash n).toList.length = (stableHash m).toList.length := by
    rw [String.length_toList, String.length_toList, hhash.length, hhash.length]
  rw [← map_sanitizeChar_eq_iff, shortened, shortened, List.map_append, List.map_append, List.map_cons, List.map_cons,
    hhash.map_sanitizeChar, hhash.map_sanitizeChar] at h
  have htail := (List.append_inj' h (by simp [hlen])).2
  exact String.toList_inj.mp (List.cons_inj_right _ |>.mp htail)

theorem kept_alike_iff (hinj : stableHash n = stableHash m → n = m) (hne : n ≠ m) :
    Alike (kept stableHash n nodeNamePrefixLen) (kept stableHash m nodeNamePrefixLen) ↔ Merges stableHash n m := by
  constructor
  · intro h
    rw [kept, kept] at h
    split at h
    · rename_i hn
      split at h
      · rename_i hm
        exact .short hn hm h
      · rename_i hm
        exact .spells ⟨hn, by omega, h⟩
    · rename_i hn
      split at h
      · rename_i hm
        exact .spelled ⟨hm, by omega, alike_symm h⟩
      · exact absurd (hinj (shortened_alike hhash h)) hne
  · intro h
    cases h with
    | short hn hm h =>
        rw [kept, kept, if_pos hn, if_pos hm]
        exact h
    | spells h =>
        rw [kept, kept, if_pos h.short, if_neg (by have := h.long; omega)]
        exact h.alike
    | spelled h =>
        rw [kept, kept, if_pos h.short, if_neg (by have := h.long; omega)]
        exact alike_symm h.alike

theorem jobName_eq_iff (hinj : stableHash n = stableHash m → n = m) (hne : n ≠ m) (runId : String) :
    jobName stableHash runId n = jobName stableHash runId m ↔ Merges stableHash n m := by
  rw [← kept_alike_iff hhash hinj hne, ← map_sanitizeChar_eq_iff, ← String.toList_inj, toList_jobName hhash,
    toList_jobName hhash]
  simp

end Merging

theorem configmapName_eq_iff {stableHash : String → String} (runId n m : String) :
    configmapName stableHash runId n = configmapName stableHash runId m ↔
      jobName stableHash runId n = jobName stableHash runId m := by
  rw [← String.toList_inj, toList_configmapName, toList_configmapName, List.append_left_inj, String.toList_inj]

/-! ## Dispatching and cancelling beside another node -/

section Beside

variable {stableHash : String → String} {runId : String} {metadata : RunMetadata} {node : NodeInfo}

theorem throughout_run {P : Cluster → Prop} {Q : Cluster → Unit → Option (Except DispatchError Unit) → Prop}
    {pr : Process Unit Empty KubeResp (Except DispatchError Unit)}
    {x y : Cluster × Prog Unit KubeResp (Option (Except DispatchError Unit))}
    (h : Relation.ReflTransGen (kubernetes.Step pr) x y) (hx : Throughout kubernetes.answers P Q x.1 x.2) : P y.1 := by
  have hrun := Throughout.run (fun _ _ _ _ hd => hd) (fun _ _ hd => hd) (fun _ _ _ hr => hr) h hx
  exact hrun.here

/-- Nothing was refused, and the node's names are free. -/
structure Free (stableHash : String → String) (runId nodeName : String) (w : Cluster) : Prop where
  refused : w.refused = []
  configMap : ¬w.hasConfigMap (configmapName stableHash runId nodeName)
  job : ¬w.hasJob (jobName stableHash runId nodeName)

theorem throughout_read {P : Cluster → Prop} {w : Cluster} {e : KubeEffect} (hP : P w)
    (he : ∀ r w', w.Answers e r w' → w' = w) :
    Throughout kubernetes.answers P (fun w' _ _ => w' = w) w (kube e ()) := by
  apply Throughout.perform hP
  intro r w' hr
  have := he r w' hr
  subst this
  exact ⟨hP, rfl⟩

theorem throughout_createObjects {w : Cluster} (h : Free stableHash runId node.name w) :
    Throughout kubernetes.answers (fun w => w.refused = []) (fun _ _ _ => True) w
      (createObjects stableHash runId node ()) := by
  refine ⟨h.refused, fun r w' hr => ?_⟩
  rcases hr with ⟨hcm, -, -⟩ | ⟨-, rfl, rfl⟩ | ⟨message, rfl, rfl⟩
  · exact absurd hcm h.configMap
  · refine ⟨h.refused, fun r w'' hr => ?_⟩
    rcases hr with ⟨hjob, -, -⟩ | ⟨-, rfl, rfl⟩ | ⟨message, rfl, rfl⟩
    · exact absurd hjob h.job
    · exact ⟨h.refused, trivial⟩
    · refine ⟨h.refused, fun r w''' hr => ?_⟩
      rcases hr with ⟨-, rfl⟩ | ⟨e, -, rfl⟩
      · exact ⟨h.refused, trivial⟩
      · exact ⟨h.refused, trivial⟩
  · exact ⟨h.refused, trivial⟩

theorem throughout_sourceUrl {P : Cluster → Prop} {w : Cluster} (hP : P w) :
    Throughout kubernetes.answers P (fun w' _ _ => w' = w) w (sourceUrl runId node ()) := by
  rw [sourceUrl]
  split
  · exact throughout_read hP fun r w' hr => hr
  · exact ⟨hP, rfl⟩

/-- A node whose names are free is refused nothing. -/
theorem throughout_dispatch {w : Cluster} (h : Free stableHash runId node.name w) :
    Throughout kubernetes.answers (fun w => w.refused = []) (fun _ _ _ => True) w
      (dispatch stableHash runId metadata node ()) := by
  rw [dispatch]
  split
  · exact ⟨h.refused, trivial⟩
  · apply Throughout.seq (throughout_read (e := .putStatusUrl runId node.name) h.refused fun _ _ hr => hr)
    rintro _ _ (e | _) - rfl
    · exact ⟨h.refused, trivial⟩
    · apply Throughout.seq (throughout_read (e := .putLogsUrl runId node.name) h.refused fun _ _ hr => hr)
      rintro _ _ (e | _) - rfl
      · exact ⟨h.refused, trivial⟩
      · apply Throughout.seq (throughout_sourceUrl h.refused)
        rintro _ _ (e | _) - rfl
        · exact ⟨h.refused, trivial⟩
        · exact throughout_createObjects h

theorem Reached.refused {w w' : Cluster} {p : Prog Unit KubeResp (Option (Except DispatchError Unit))}
    (hw : Free stableHash runId node.name w) (h : Reached stableHash runId metadata node w w' p) : w'.refused = [] := by
  have hstart : Throughout kubernetes.answers (fun w => w.refused = []) (fun _ _ _ => True) w
      ((dispatching stableHash runId metadata node).start ()) := by
    apply Throughout.seq (throughout_dispatch hw)
    intro w _ r hP _
    exact ⟨hP, trivial⟩
  exact throughout_run h hstart

variable {n m : String}

/-- The cluster holds what it held of the node. -/
structure Keeps (stableHash : String → String) (runId nodeName : String) (w w' : Cluster) : Prop where
  jobs : ∀ job ∈ w.jobs, job.name = jobName stableHash runId nodeName → job ∈ w'.jobs
  configMaps : ∀ cm ∈ w.configMaps, cm.name = configmapName stableHash runId nodeName → cm ∈ w'.configMaps

/-- Cancelling a node deletes nothing of a node with other names. -/
theorem Cancels.keeps {w w' : Cluster} (hne : jobName stableHash runId n ≠ jobName stableHash runId m)
    (h : Cancels stableHash runId n w w') : Keeps stableHash runId m w w' := by
  have hcm : configmapName stableHash runId n ≠ configmapName stableHash runId m := by rwa [Ne, configmapName_eq_iff]
  have hjobs : ∀ u : Cluster, Keeps stableHash runId m w u → Keeps stableHash runId m w
      { u with jobs := u.jobs.filter (·.name ≠ jobName stableHash runId n) } := by
    intro u hu
    refine ⟨fun job hjob hname => ?_, hu.configMaps⟩
    exact List.mem_filter.mpr ⟨hu.jobs job hjob hname, by simpa [hname] using hne.symm⟩
  have hcms : ∀ u : Cluster, Keeps stableHash runId m w u → Keeps stableHash runId m w
      { u with configMaps := u.configMaps.filter (·.name ≠ configmapName stableHash runId n) } := by
    intro u hu
    refine ⟨hu.jobs, fun cm hmem hname => ?_⟩
    exact List.mem_filter.mpr ⟨hu.configMaps cm hmem hname, by simpa [hname] using hcm.symm⟩
  have hstart : Throughout kubernetes.answers (Keeps stableHash runId m w) (fun _ _ _ => True) w
      ((cancelling stableHash runId n).start ()) := by
    have hw : Keeps stableHash runId m w w := ⟨fun _ hmem _ => hmem, fun _ hmem _ => hmem⟩
    have hlast : ∀ u, Keeps stableHash runId m w u → ∀ r u',
        Cluster.Answers u (.deleteConfigMap (configmapName stableHash runId n)) r u' → Keeps stableHash runId m w u' := by
      intro u hu r u' hr
      rcases hr with ⟨-, rfl⟩ | ⟨e, -, rfl⟩
      · exact hcms u hu
      · exact hu
    refine ⟨hw, fun r u hr => ?_⟩
    have hu : Keeps stableHash runId m w u := by
      rcases hr with ⟨-, rfl⟩ | ⟨e, -, rfl⟩
      · exact hjobs w hw
      · exact hw
    exact ⟨hu, fun r u' hr => ⟨hlast u hu r u' hr, trivial⟩⟩
  obtain ⟨p, hr⟩ := h
  exact throughout_run hr hstart

end Beside

/-! ## Two nodes of a run -/

/-- Whatever bears one of `n`'s names is an object of `m`. -/
structure HeldBy (stableHash : String → String) (runId n m : String) (w : Cluster) : Prop where
  configMaps : ∀ cm ∈ w.configMaps, cm.name = configmapName stableHash runId n → cm.name = configmapName stableHash runId m
  jobs : ∀ job ∈ w.jobs, job.name = jobName stableHash runId n → job.name = jobName stableHash runId m

/-- The names of two nodes differ, an object of the one is in no dispatch's way of the other, and cancelling the one
leaves what there is of the other. -/
structure Apart (stableHash : String → String) (runId n m : String) : Prop where
  job : jobName stableHash runId n ≠ jobName stableHash runId m
  configMap : configmapName stableHash runId n ≠ configmapName stableHash runId m
  dispatch : ∀ metadata (node : NodeInfo) w w' p, node.name = n → HeldBy stableHash runId n m w → w.refused = [] →
    Reached stableHash runId metadata node w w' p → w'.refused = []
  cancel : ∀ w w', Cancels stableHash runId n w w' → Keeps stableHash runId m w w'

/-- Two nodes are apart just where their names do not merge. -/
theorem apart_iff_not_merges {stableHash : String → String} (hhash : HexDigest stableHash) (runId : String) {n m : String}
    (hne : n ≠ m) (hinj : stableHash n = stableHash m → n = m) :
    Apart stableHash runId n m ↔ ¬Merges stableHash n m := by
  rw [← jobName_eq_iff hhash hinj hne runId]
  constructor
  · intro h
    exact h.job
  · intro hjob
    have hcm : configmapName stableHash runId n ≠ configmapName stableHash runId m := by
      rwa [Ne, configmapName_eq_iff]
    refine ⟨hjob, hcm, ?_, fun w w' h => h.keeps hjob⟩
    rintro metadata node w w' p rfl hheld hrefused h
    apply h.refused
    refine ⟨hrefused, ?_, ?_⟩
    · intro hhas
      obtain ⟨cm, hmem, hname⟩ := hhas
      exact hcm (hname.symm.trans (hheld.configMaps cm hmem hname))
    · intro hhas
      obtain ⟨job, hmem, hname⟩ := hhas
      exact hjob (hname.symm.trans (hheld.jobs job hmem hname))

theorem apart_iff_not_merges_dots :
    Apart sampleDigest "7d444840-9dc0-11d1-b245-5ffdce74fad2" "a.b" "a-b" ↔ ¬Merges sampleDigest "a.b" "a-b" :=
  apart_iff_not_merges sampleDigest_hex _ (by decide) (by decide)

/-- A pipeline with the nodes `a.b` and `a-b`. -/
def dotAndDash : Pipeline := .plain "ci" [.plain "a.b" [], .plain "a-b" []]

/-- The document that declares it. -/
def dotAndDashYaml : String := "name: ci\nnodes:\n- name: a.b\n  steps: [make]\n- name: a-b\n  steps: [make]\n"

/-- The validators accept two nodes that share their Job's name. -/
theorem dotAndDash_share_a_name :
    Pipeline.fromYaml (reads dotAndDashYaml dotAndDash) .sorted dotAndDashYaml = .ok dotAndDash ∧
      ¬∀ n ∈ dotAndDash.nodes.map PipelineNode.name, ∀ m ∈ dotAndDash.nodes.map PipelineNode.name, n ≠ m →
        Apart sampleDigest "7d444840-9dc0-11d1-b245-5ffdce74fad2" n m := by
  constructor
  · simp only [Pipeline.fromYaml, reads, if_true]
    rfl
  · intro h
    have hapart := h "a.b" (by simp [dotAndDash, Pipeline.plain, PipelineNode.plain]) "a-b"
      (by simp [dotAndDash, Pipeline.plain, PipelineNode.plain]) (by decide)
    apply hapart.job
    rw [jobName_eq_iff sampleDigest_hex (by decide) (by decide)]
    have hdot : core "a.b" = ['a', '.', 'b'] := by decide
    have hdash : core "a-b" = ['a', '-', 'b'] := by decide
    refine .short (by decide) (by decide) ?_
    rw [hdot, hdash]
    exact .cons (.inl ⟨rfl, rfl, rfl⟩) (.cons (.inr ⟨rfl, rfl⟩) (.cons (.inl ⟨rfl, rfl, rfl⟩) .nil))

end Jefferies.Dispatching

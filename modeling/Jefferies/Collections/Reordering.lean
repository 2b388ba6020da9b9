import Jefferies.Collections.Json

/-!
# Objects in another order

The fields of an object may come in any order. A codec that is steady reads what it has written also when the
fields of the objects, at every depth, have been put in another order.
-/

namespace Jefferies

/-- A map is given by entries with distinct keys that are all its entries. -/
theorem HashMap.ofList_eq {κ α : Type} [DecidableEq κ] {m : HashMap κ α} {entries : List (κ × α)}
    (hnd : (entries.map Prod.fst).Nodup) (hmem : ∀ e ∈ entries, m.lookup e.1 = some e.2)
    (hall : ∀ k a, m.lookup k = some a → k ∈ entries.map Prod.fst) : HashMap.ofList entries = m := by
  apply Finmap.ext_lookup
  intro k
  by_cases hk : k ∈ entries.map Prod.fst
  · obtain ⟨e, he, rfl⟩ := List.mem_map.mp hk
    rw [lookup_ofList_of_nodup hnd he, hmem e he]
  · have hnone : m.lookup k = none := by
      rw [Option.eq_none_iff_forall_ne_some]
      intro a ha
      exact hk (hall k a ha)
    have hnone' : (ofList entries).lookup k = none := by
      rw [Option.eq_none_iff_forall_ne_some]
      intro a ha
      exact hk (mem_keys_ofList.mp (mem_keys_iff_lookup.mpr ⟨a, ha⟩))
    rw [hnone, hnone']

namespace Json

/-- The second value is the first one with the fields of its objects in another order. -/
inductive Reorders : Json → Json → Prop
  | null : Reorders .null .null
  | bool (b : Bool) : Reorders (.bool b) (.bool b)
  | number (n : Nat) : Reorders (.number n) (.number n)
  | string (s : String) : Reorders (.string s) (.string s)
  | array {l l' : List Json} : l.length = l'.length →
      (∀ (i : ℕ) (v v' : Json), l[i]? = some v → l'[i]? = some v' → Reorders v v') →
      Reorders (.array l) (.array l')
  | object {l m l' : List (String × Json)} : l.Perm m → m.map Prod.fst = l'.map Prod.fst →
      (∀ (i : ℕ) (v v' : Json), (m.map Prod.snd)[i]? = some v → (l'.map Prod.snd)[i]? = some v' → Reorders v v') →
      Reorders (.object l) (.object l')

theorem Reorders.refl : (j : Json) → Reorders j j
  | .null => .null
  | .bool b => .bool b
  | .number n => .number n
  | .string s => .string s
  | .array l => .array rfl fun i v v' hv hv' => by
      rw [hv, Option.some.injEq] at hv'
      subst hv'
      have hmem := List.mem_of_getElem? hv
      exact Reorders.refl v
  | .object l => .object (.refl l) rfl fun i v v' hv hv' => by
      rw [hv, Option.some.injEq] at hv'
      subst hv'
      obtain ⟨f, hf, hfv⟩ := List.mem_map.mp (List.mem_of_getElem? hv)
      have hmem : f ∈ l := hf
      exact Reorders.refl v
termination_by j => sizeOf j
decreasing_by
  · have := List.sizeOf_lt_of_mem hmem
    simp only [Json.array.sizeOf_spec]
    omega
  · have := List.sizeOf_lt_of_mem hmem
    subst hfv
    obtain ⟨k, v⟩ := f
    simp only [Json.object.sizeOf_spec, Prod.mk.sizeOf_spec] at this ⊢
    omega

variable {l : List (String × Json)} {j : Json}

theorem Reorders.ne_null {v : Json} (h : Reorders v j) (hv : v ≠ .null) : j ≠ .null := by
  cases h <;> simp_all

theorem Reorders.object_inv (h : Reorders (.object l) j) :
    ∃ l', j = .object l' ∧ (l.map Prod.fst).Perm (l'.map Prod.fst) ∧
      ∀ f' ∈ l', ∃ v, (f'.1, v) ∈ l ∧ Reorders v f'.2 := by
  cases h with
  | @object _ m l' hperm hkeys hvalues =>
      refine ⟨l', rfl, hkeys ▸ hperm.map Prod.fst, fun f' hf' => ?_⟩
      obtain ⟨i, hi, rfl⟩ := List.mem_iff_getElem.mp hf'
      have hlen : m.length = l'.length := by simpa using congrArg List.length hkeys
      have him : i < m.length := by omega
      have hkey : m[i].1 = l'[i].1 := by
        have := congrArg (fun keys : List String => keys[i]?) hkeys
        simpa [hi, him] using this
      refine ⟨m[i].2, ?_, hvalues i _ _ (by simp [him]) (by simp [hi])⟩
      rw [← hkey]
      exact hperm.mem_iff.mpr (List.getElem_mem him)

/-! ## Fields -/

theorem field_of_mem (hnd : (l.map Prod.fst).Nodup) {name : String} {v : Json} (h : (name, v) ∈ l) :
    (Json.object l).field name = some (some v) := by
  have hfilter : (l.filter fun f => f.1 = name) = [(name, v)] := by
    obtain ⟨before, rest, rfl⟩ := List.append_of_mem h
    simp only [List.map_append, List.map_cons, List.nodup_append, List.nodup_cons, List.mem_cons] at hnd
    have hbefore : (before.filter fun f => f.1 = name) = [] := by
      simp only [List.filter_eq_nil_iff, decide_eq_true_eq]
      intro f hf hname
      exact hnd.2.2 f.1 (List.mem_map.mpr ⟨f, hf, rfl⟩) name (Or.inl rfl) hname
    have hrest : (rest.filter fun f => f.1 = name) = [] := by
      simp only [List.filter_eq_nil_iff, decide_eq_true_eq]
      intro f hf hname
      exact hnd.2.1.1 (List.mem_map.mpr ⟨f, hf, hname⟩)
    simp [hbefore, hrest]
  simp [field, hfilter]

theorem field_of_notMem {name : String} (h : name ∉ l.map Prod.fst) :
    (Json.object l).field name = some none := by
  have hfilter : (l.filter fun f => f.1 = name) = [] := by
    simp only [List.filter_eq_nil_iff, decide_eq_true_eq]
    intro f hf hname
    exact h (List.mem_map.mpr ⟨f, hf, hname⟩)
  simp [field, hfilter]

/-- What stands under the fields of a reordered object with distinct names. -/
theorem Reorders.field (h : Reorders (.object l) j) (hnd : (l.map Prod.fst).Nodup) (name : String) :
    ∃ o o', (Json.object l).field name = some o ∧ j.field name = some o' ∧ Option.Rel Reorders o o' := by
  obtain ⟨l', rfl, hkeys, hvalues⟩ := h.object_inv
  by_cases hname : name ∈ l'.map Prod.fst
  · obtain ⟨f', hf', rfl⟩ := List.mem_map.mp hname
    obtain ⟨v, hv, hreorders⟩ := hvalues f' hf'
    exact ⟨_, _, field_of_mem hnd hv, field_of_mem (hkeys.nodup_iff.mp hnd) hf', .some hreorders⟩
  · exact ⟨_, _, field_of_notMem fun h => hname (hkeys.mem_iff.mp h), field_of_notMem hname, .none⟩

theorem record_keys_sublist (fields : List (String × Option Json)) :
    ((fields.filterMap fun f => f.2.map fun v => (f.1, v)).map Prod.fst).Sublist (fields.map Prod.fst) := by
  induction fields with
  | nil => exact List.Sublist.refl _
  | cons f fields ih =>
      obtain ⟨k, v⟩ := f
      cases v with
      | none => exact ih.cons k
      | some v => exact ih.cons_cons k

/-- A reordered record has its fields. -/
theorem Reorders.record_field {fields : List (String × Option Json)} (h : Reorders (record fields) j)
    (hnd : (fields.map Prod.fst).Nodup) (name : String) :
    ∃ o', j.field name = some o' ∧ Option.Rel Reorders (fields.lookup name).join o' := by
  obtain ⟨o, o', ho, ho', hrel⟩ := h.field (hnd.sublist (record_keys_sublist fields)) name
  have hrecord := field_record hnd name
  rw [record, ho, Option.some.injEq] at hrecord
  subst hrecord
  exact ⟨o', ho', hrel⟩

/-- The value `x` is read from a field, however the objects in it are ordered. -/
def Reads {α : Type} (r : Option Json → Option α) (o : Option Json) (x : α) : Prop :=
  ∀ o', Option.Rel Reorders o o' → r o' = some x

/-- Reading one field of a reordered record, and going on with its value. -/
theorem Reorders.bind_field {fields : List (String × Option Json)} (h : Reorders (record fields) j)
    (hnd : (fields.map Prod.fst).Nodup) (name : String) {α β : Type} {r : Option Json → Option α} {x : α}
    (hr : Reads r (fields.lookup name).join x) (f : α → Option β) :
    (j.field name >>= fun o => r o >>= f) = f x := by
  obtain ⟨o', ho', hrel⟩ := h.record_field hnd name
  rw [ho', Option.bind_eq_bind, Option.bind_some, hr o' hrel, Option.bind_eq_bind, Option.bind_some]

end Json

namespace Codec

open Json

variable {α : Type} {c : Codec α}

/-- What the codec writes is read back in whatever order the fields of its objects come. -/
def Steady (c : Codec α) : Prop := ∀ x j, Reorders (c.write x) j → c.read j = some x

/-! ## Single values -/

theorem text_steady : text.Steady := by
  intro s j h
  cases h
  rfl

theorem number_steady : number.Steady := by
  intro n j h
  cases h
  rfl

theorem flag_steady : flag.Steady := by
  intro b j h
  cases h
  rfl

/-! ## Collections -/

theorem Steady.list (hc : c.Steady) : (Codec.list c).Steady := by
  intro l j h
  cases h with
  | @array _ l' hlen hvalues =>
      show l'.mapM c.read = some l
      induction l generalizing l' with
      | nil =>
          have hnil : l' = [] := List.length_eq_zero_iff.mp (by simpa using hlen.symm)
          subst hnil
          rfl
      | cons x l ih =>
          cases l' with
          | nil => simp at hlen
          | cons v' l' =>
              have hhead : c.read v' = some x := hc x v' (hvalues 0 _ _ rfl rfl)
              have htail := ih (by simpa using hlen) fun i v v' hv hv' => hvalues (i + 1) v v' hv hv'
              simp [hhead, htail]

/-- Entries that are read one by one, each as it stands in the map. -/
theorem mapM_read_entries {m : HashMap String α} (l : List (String × Json))
    (h : ∀ f ∈ l, ∃ x, m.lookup f.1 = some x ∧ c.read f.2 = some x) :
    ∃ entries, (l.mapM fun f => (c.read f.2).map fun x => (f.1, x)) = some entries ∧
      entries.map Prod.fst = l.map Prod.fst ∧ ∀ e ∈ entries, m.lookup e.1 = some e.2 := by
  induction l with
  | nil => exact ⟨[], rfl, rfl, by simp⟩
  | cons f l ih =>
      obtain ⟨x, hx, hread⟩ := h f (by simp)
      obtain ⟨entries, hentries, hkeys, hlook⟩ := ih fun f' hf' => h f' (by simp [hf'])
      refine ⟨(f.1, x) :: entries, by simp [hread, hentries], by simp [hkeys], ?_⟩
      simpa [hx] using hlook

theorem Steady.map (hc : c.Steady) : (Codec.map c).Steady := by
  intro m j h
  obtain ⟨l', rfl, hkeys, hvalues⟩ := Reorders.object_inv h
  have hwritten : ∀ f' ∈ l', ∃ x, m.lookup f'.1 = some x ∧ c.read f'.2 = some x := by
    intro f' hf'
    obtain ⟨v, hv, hreorders⟩ := hvalues f' hf'
    obtain ⟨⟨k, x⟩, he, heq⟩ := List.mem_map.mp hv
    simp only [Prod.mk.injEq] at heq
    obtain ⟨rfl, rfl⟩ := heq
    exact ⟨x, HashMap.IterOrder.sorted.mem_entries.mp he, hc x _ hreorders⟩
  obtain ⟨entries, hentries, hfst, hlook⟩ := mapM_read_entries l' hwritten
  have hwrote : (((HashMap.IterOrder.sorted.entries m).map fun e => (e.1, c.write e.2)).map Prod.fst) =
      (HashMap.IterOrder.sorted.entries m).map Prod.fst := by
    rw [List.map_map]
    rfl
  rw [hwrote, ← hfst] at hkeys
  have hm : HashMap.ofList entries = m := by
    refine HashMap.ofList_eq (hkeys.nodup_iff.mp (HashMap.IterOrder.sorted.nodup_keys m)) hlook fun k a ha => ?_
    exact hkeys.mem_iff.mp (List.mem_map.mpr ⟨(k, a), HashMap.IterOrder.sorted.mem_entries.mpr ha, rfl⟩)
  show (l'.mapM fun f => (c.read f.2).map fun x => (f.1, x)).map HashMap.ofList = some m
  rw [hentries, Option.map_some, hm]

/-! ## Fields -/

theorem Steady.required (hc : c.Steady) (x : α) : Reads c.readRequired (some (c.write x)) x := by
  intro o' h
  cases h with
  | some h => exact hc x _ h

theorem Steady.option (hc : c.Steady) (x : Option α) : Reads c.readOption (c.writeOption x) x := by
  intro o' h
  cases x with
  | none =>
      cases h
      rfl
  | some x =>
      cases h with
      | @some _ j h =>
          have hread := hc x j h
          have hnull := h.ne_null (c.write_ne_null x)
          cases j <;> simp_all [readOption]

theorem Steady.or (hc : c.Steady) {default : α} {isDefault : α → Bool}
    (hd : ∀ x, isDefault x = true → x = default) (x : α) :
    Reads (c.readOr default) (c.writeUnless isDefault x) x := by
  intro o' h
  unfold writeUnless at h
  split at h
  · rename_i hdefault
    cases h
    rw [hd x hdefault]
    rfl
  · cases h with
    | some h => exact hc x _ h

end Codec

end Jefferies

import Jefferies.Collections.HashMap
import Jefferies.Collections.Result

/-!
# Exact checks

A computation that may fail decides a proposition when it succeeds exactly where the proposition holds. Sequences
and loops of such computations decide conjunctions. An index is a hash map that holds the entries of a list, whose
keys are distinct.
-/

namespace Jefferies

variable {ε α β κ : Type}

/-- The computation succeeds exactly where `p` holds, and then with a value that satisfies `Q`. -/
def Decides (x : Except ε α) (p : Prop) (Q : α → Prop) : Prop :=
  match x with
  | .ok a => p ∧ Q a
  | .error _ => ¬p

namespace Decides

variable {x : Except ε α} {p p' : Prop} {Q : α → Prop}

theorem of_ok (h : Decides x p Q) {a : α} (ha : x = .ok a) : p ∧ Q a := by
  subst ha
  exact h

theorem congr (h : Decides x p Q) (hp : p ↔ p') : Decides x p' Q := by
  rwa [← propext hp]

theorem mono {Q' : α → Prop} (h : Decides x p Q) (hQ : ∀ a, p → Q a → Q' a) : Decides x p Q' := by
  cases x with
  | ok a => exact ⟨h.1, hQ a h.1 h.2⟩
  | error e => exact h

theorem pure (a : α) (h : Q a) : Decides (.ok a : Except ε α) True Q := ⟨trivial, h⟩

/-- A test. -/
theorem ite {c : Prop} [Decidable c] {e : ε} {a : α} (hQ : ¬c → Q a) :
    Decides (if c then .error e else .ok a : Except ε α) (¬c) Q := by
  split
  · exact not_not.mpr ‹_›
  · exact ⟨‹_›, hQ ‹_›⟩

/-- A test before a further check. -/
theorem guard {c : Prop} [Decidable c] {e : ε} (h : ¬c → Decides x p Q) :
    Decides (if c then .error e else x) (¬c ∧ p) Q := by
  split
  · rename_i hc
    exact fun hp => hp.1 hc
  · rename_i hc
    exact (h hc).congr (and_iff_right hc).symm

/-- The rule for a sequence. -/
theorem bind {f : α → Except ε β} {Q' : β → Prop} (h : Decides x p Q) (hf : ∀ a, p → Q a → Decides (f a) p' Q') :
    Decides (x >>= f) (p ∧ p') Q' := by
  cases x with
  | error e => exact fun hp => h hp.1
  | ok a =>
      have hfa := hf a h.1 h.2
      show Decides (f a) (p ∧ p') Q'
      exact hfa.congr (and_iff_right h.1).symm

/-- A loop that checks each element. -/
theorem forM {f : β → Except ε Unit} {P : β → Prop} {l : List β} (h : ∀ b ∈ l, Decides (f b) (P b) fun _ => True) :
    Decides (l.forM f) (∀ b ∈ l, P b) fun _ => True := by
  induction l with
  | nil => exact (pure () trivial).congr (by simp)
  | cons b l ih =>
      have hl := ih fun b' hb' => h b' (List.mem_cons_of_mem _ hb')
      exact ((h b List.mem_cons_self).bind fun _ _ _ => hl).congr List.forall_mem_cons.symm

/-- A loop that builds something: what is decided of the elements so far is extended by each one. -/
theorem foldlM {f : β → α → Except ε β} {b : β} {P : List α → Prop} {G : List α → α → Prop} {J : List α → β → Prop}
    (hnil : P []) (hb : J [] b) (hP : ∀ l x, P (l ++ [x]) ↔ P l ∧ G l x)
    (step : ∀ l x b, P l → J l b → Decides (f b x) (G l x) (J (l ++ [x]))) (l : List α) :
    Decides (l.foldlM f b) (P l) (J l) := by
  induction l using List.reverseRecOn with
  | nil => exact ⟨hnil, hb⟩
  | append_singleton l x ih =>
      rw [List.foldlM_append]
      refine (ih.bind fun b' hl hJ => ?_).congr (hP l x).symm
      have hstep := step l x b' hl hJ
      rw [List.foldlM_cons]
      cases hf : f b' x with
      | error e =>
          rw [hf] at hstep
          exact hstep
      | ok b'' =>
          rw [hf] at hstep
          exact hstep

end Decides

/-! ## Indexes -/

theorem nodup_map_append_singleton (f : α → β) (l : List α) (a : α) :
    ((l ++ [a]).map f).Nodup ↔ (l.map f).Nodup ∧ f a ∉ l.map f := by
  rw [List.map_append, List.map_singleton, List.nodup_append_comm, List.singleton_append, List.nodup_cons]
  exact and_comm

/-- The map holds the entries, and no two of them have one key. -/
structure Indexes [DecidableEq κ] (m : HashMap κ α) (entries : List (κ × α)) : Prop where
  nodup : (entries.map Prod.fst).Nodup
  lookup : ∀ k a, m.lookup k = some a ↔ (k, a) ∈ entries

namespace Indexes

variable [DecidableEq κ] {m : HashMap κ α} {entries : List (κ × α)} {k : κ}

theorem empty : Indexes (∅ : HashMap κ α) [] := ⟨List.nodup_nil, by simp⟩

theorem mem_keys (h : Indexes m entries) : k ∈ m.keys ↔ k ∈ entries.map Prod.fst := by
  rw [HashMap.mem_keys_iff_lookup, List.mem_map]
  constructor
  · rintro ⟨a, ha⟩
    exact ⟨(k, a), (h.lookup k a).mp ha, rfl⟩
  · rintro ⟨⟨k', a⟩, hmem, rfl⟩
    exact ⟨a, (h.lookup k' a).mpr hmem⟩

/-- A new key is a new entry. -/
theorem insert (h : Indexes m entries) (hk : k ∉ m.keys) (a : α) : Indexes (m.insert k a) (entries ++ [(k, a)]) := by
  rw [h.mem_keys] at hk
  constructor
  · exact (nodup_map_append_singleton _ _ _).mpr ⟨h.nodup, hk⟩
  · intro k' a'
    rw [HashMap.lookup_insert_eq_ite, List.mem_append, List.mem_singleton]
    split
    · rename_i he
      subst he
      have hnot : (k', a') ∉ entries := fun hmem => hk (List.mem_map_of_mem hmem)
      simp [hnot, eq_comm]
    · rename_i he
      rw [h.lookup]
      simp [he]

end Indexes

end Jefferies

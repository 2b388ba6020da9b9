import Mathlib.Logic.Function.Basic

/-!
# Registers written by compare-and-set

A register holds a value with a version number, or nothing. Processes read it, and write it by a
compare-and-set that compares version numbers only. The ledger of a register records what each process saw
last, and in which life of the register: erased and written anew, it starts another life, in which version
numbers come again.
-/

namespace Jefferies.Versioning

/-- A register with what its processes last saw, and in which life. A process is overtaken once another one
has written a higher version since. -/
structure Ledger (ι σ : Type) where
  value : Option σ
  life : Nat
  seen : ι → Option (Nat × σ)
  overtaken : ι → Prop

namespace Ledger

variable {ι σ : Type} (version : σ → Nat) (l : Ledger ι σ)

/-- The ledger of a register that was never written. -/
def blank : Ledger ι σ := ⟨none, 0, fun _ => none, fun _ => False⟩

def read [DecidableEq ι] (i : ι) : Ledger ι σ :=
  { l with
    seen := Function.update l.seen i (l.value.map fun s => (l.life, s))
    overtaken := Function.update l.overtaken i False }

/-- The life in which a write leaves the register. -/
def lifeAfterWrite : Nat := if l.value.isNone then l.life + 1 else l.life

def write [DecidableEq ι] (i : ι) (s : σ) : Ledger ι σ where
  value := some s
  life := l.lifeAfterWrite
  seen := Function.update l.seen i (some (l.lifeAfterWrite, s))
  overtaken j := j ≠ i ∧ (l.overtaken j ∨ ∃ current, l.value = some current ∧ version current < version s)

def erase : Ledger ι σ := { l with value := none }

/-- Process `j` takes over what process `i` has seen. -/
def fork [DecidableEq ι] (i j : ι) : Ledger ι σ :=
  { l with
    seen := Function.update l.seen j (l.seen i)
    overtaken := Function.update l.overtaken j (l.overtaken i) }

/-- The compare-and-set that expects `e` writes. -/
def Accepts (e : Nat) : Prop := (l.value = none ∧ e = 0) ∨ ∃ current, l.value = some current ∧ version current = e

/-- What the process saw last is of the present life, or it has seen nothing where there is nothing. -/
def Current (i : ι) : Prop :=
  (l.value = none ∧ l.seen i = none) ∨ (l.value ≠ none ∧ ∃ s, l.seen i = some (l.life, s))

instance (i : ι) : Decidable (l.Current i) :=
  match hv : l.value, hs : l.seen i with
  | none, none => isTrue (Or.inl ⟨hv, hs⟩)
  | none, some _ => isFalse fun h => by simp [Current, hv, hs] at h
  | some _, none => isFalse fun h => by simp [Current, hv, hs] at h
  | some _, some (n, s) =>
      if hn : n = l.life then isTrue (Or.inr ⟨by simp [hv], s, by rw [hs, hn]⟩)
      else isFalse fun h => by simp [Current, hv, hs, hn] at h

/-- Another process has written since, or the process no longer expects what it saw; where the process has
seen nothing of the present life, the version there (0 if there is none) is another one than it expects. -/
def Late (i : ι) (e : Nat) : Prop :=
  (∃ current s, l.value = some current ∧ l.seen i = some (l.life, s) ∧ (l.overtaken i ∨ version s ≠ e)) ∨
    ((∀ current s, l.value = some current → l.seen i ≠ some (l.life, s)) ∧ (l.value.map version).getD 0 ≠ e)

/-! ## The versions within one life -/

/-- Lives only grow, and within one life so do versions. -/
structure Coherent : Prop where
  past : ∀ i n s, l.seen i = some (n, s) → n ≤ l.life
  still : ∀ i s current, l.seen i = some (l.life, s) → l.value = some current → ¬l.overtaken i →
    version s = version current
  behind : ∀ i s current, l.seen i = some (l.life, s) → l.value = some current → l.overtaken i →
    version s < version current

/-- Within one life a version number stands for one value. -/
def Exact : Prop :=
  ∀ i s current, l.seen i = some (l.life, s) → l.value = some current → version s = version current → s = current

variable {version} {l}

theorem coherent_blank : (blank : Ledger ι σ).Coherent version where
  past _ _ _ h := by cases h
  still _ _ _ h := by cases h
  behind _ _ _ h := by cases h

theorem exact_blank : (blank : Ledger ι σ).Exact version := fun _ _ _ h => by cases h

theorem Coherent.le (h : l.Coherent version) {i : ι} {s current : σ} (hs : l.seen i = some (l.life, s))
    (hv : l.value = some current) : version s ≤ version current := by
  by_cases ho : l.overtaken i
  · exact Nat.le_of_lt (h.behind i s current hs hv ho)
  · exact Nat.le_of_eq (h.still i s current hs hv ho)

/-- What a process that reads has seen is the value. -/
theorem seen_read [DecidableEq ι] {i : ι} {n : Nat} {s : σ} (h : (l.read i).seen i = some (n, s)) :
    n = l.life ∧ l.value = some s := by
  simp only [read, Function.update_self, Option.map_eq_some_iff, Prod.mk.injEq] at h
  obtain ⟨s', hs', rfl, rfl⟩ := h
  exact ⟨rfl, hs'⟩

theorem seen_read_of_ne [DecidableEq ι] {i j : ι} (hj : j ≠ i) : (l.read i).seen j = l.seen j :=
  Function.update_of_ne hj _ _

theorem Coherent.read [DecidableEq ι] (h : l.Coherent version) (i : ι) : (l.read i).Coherent version where
  past j n s hs := by
    by_cases hj : j = i
    · subst hj
      exact Nat.le_of_eq (seen_read hs).1
    · rw [seen_read_of_ne hj] at hs
      exact h.past j n s hs
  still j s current hs hv ho := by
    by_cases hj : j = i
    · subst hj
      have hval := (seen_read hs).2
      rw [Option.some.inj (hval.symm.trans hv)]
    · rw [seen_read_of_ne hj] at hs
      refine h.still j s current hs hv fun hj' => ho ?_
      simpa [Ledger.read, Function.update_of_ne hj] using hj'
  behind j s current hs hv ho := by
    by_cases hj : j = i
    · subst hj
      simp [Ledger.read] at ho
    · rw [seen_read_of_ne hj] at hs
      refine h.behind j s current hs hv ?_
      simpa [Ledger.read, Function.update_of_ne hj] using ho

theorem Exact.read [DecidableEq ι] (h : l.Exact version) (i : ι) : (l.read i).Exact version := by
  intro j s current hs hv hver
  by_cases hj : j = i
  · subst hj
    exact Option.some.inj ((seen_read hs).2.symm.trans hv)
  · rw [seen_read_of_ne hj] at hs
    exact h j s current hs hv hver

theorem Coherent.erase (h : l.Coherent version) : l.erase.Coherent version where
  past := h.past
  still _ _ _ _ hv := by cases hv
  behind _ _ _ _ hv := by cases hv

theorem Exact.erase : l.erase.Exact version := fun _ _ _ _ hv => by cases hv

theorem Coherent.fork [DecidableEq ι] (h : l.Coherent version) (i j : ι) :
    (l.fork i j).Coherent version := by
  have hcase : ∀ k, ((l.fork i j).seen k = l.seen i ∧ (l.fork i j).overtaken k = l.overtaken i) ∨
      ((l.fork i j).seen k = l.seen k ∧ (l.fork i j).overtaken k = l.overtaken k) := by
    intro k
    by_cases hk : k = j
    · subst hk
      exact Or.inl (by simp [Ledger.fork])
    · exact Or.inr (by simp [Ledger.fork, hk])
  constructor
  · intro k n s hs
    rcases hcase k with ⟨he, _⟩ | ⟨he, _⟩ <;> rw [he] at hs <;> exact h.past _ n s hs
  · intro k s current hs hv ho
    rcases hcase k with ⟨he, he'⟩ | ⟨he, he'⟩ <;> rw [he] at hs <;> rw [he'] at ho <;>
      exact h.still _ s current hs hv ho
  · intro k s current hs hv ho
    rcases hcase k with ⟨he, he'⟩ | ⟨he, he'⟩ <;> rw [he] at hs <;> rw [he'] at ho <;>
      exact h.behind _ s current hs hv ho

theorem Exact.fork [DecidableEq ι] (h : l.Exact version) (i j : ι) : (l.fork i j).Exact version := by
  intro k s current hs hv hver
  by_cases hk : k = j
  · subst hk
    simp only [Ledger.fork, Function.update_self] at hs
    exact h i s current hs hv hver
  · simp only [Ledger.fork, Function.update_of_ne hk] at hs
    exact h k s current hs hv hver

/-! ## Writing -/

theorem lifeAfterWrite_none (h : l.value = none) : l.lifeAfterWrite = l.life + 1 := by
  simp [lifeAfterWrite, h]

theorem lifeAfterWrite_some {current : σ} (h : l.value = some current) : l.lifeAfterWrite = l.life := by
  simp [lifeAfterWrite, h]

theorem le_lifeAfterWrite : l.life ≤ l.lifeAfterWrite := by
  unfold lifeAfterWrite
  split <;> omega

/-- What another process has seen in the life that a write leaves was seen in that life before. -/
theorem Coherent.seen_before (h : l.Coherent version) {j : ι} {s : σ}
    (hs : l.seen j = some (l.lifeAfterWrite, s)) :
    ∃ current, l.value = some current ∧ l.seen j = some (l.life, s) := by
  cases hv : l.value with
  | none =>
      rw [lifeAfterWrite_none hv] at hs
      have := h.past j _ s hs
      omega
  | some current =>
      rw [lifeAfterWrite_some hv] at hs
      exact ⟨current, rfl, hs⟩

theorem Coherent.write [DecidableEq ι] (h : l.Coherent version) (i : ι) {s : σ}
    (hle : ∀ current, l.value = some current → version current ≤ version s) :
    (l.write version i s).Coherent version where
  past j n s' hs := by
    by_cases hj : j = i
    · subst hj
      simp only [Ledger.write, Function.update_self, Option.some.injEq, Prod.mk.injEq] at hs
      exact Nat.le_of_eq hs.1.symm
    · simp only [Ledger.write, Function.update_of_ne hj] at hs
      exact Nat.le_trans (h.past j n s' hs) le_lifeAfterWrite
  still j s' current hs hv ho := by
    cases hv
    by_cases hj : j = i
    · subst hj
      simp only [Ledger.write, Function.update_self, Option.some.injEq, Prod.mk.injEq] at hs
      rw [hs.2]
    · simp only [Ledger.write, Function.update_of_ne hj] at hs
      obtain ⟨before, hbefore, hs'⟩ := h.seen_before hs
      have hnot : ¬l.overtaken j ∧ ¬version before < version s := by
        constructor
        · exact fun h' => ho ⟨hj, Or.inl h'⟩
        · exact fun h' => ho ⟨hj, Or.inr ⟨before, hbefore, h'⟩⟩
      have hsame := h.still j s' before hs' hbefore hnot.1
      have hup := hle before hbefore
      omega
  behind j s' current hs hv ho := by
    cases hv
    obtain ⟨hj, ho⟩ := ho
    simp only [Ledger.write, Function.update_of_ne hj] at hs
    obtain ⟨before, hbefore, hs'⟩ := h.seen_before hs
    have hup := hle before hbefore
    rcases ho with ho | ⟨before', hbefore', hlt⟩
    · have := h.behind j s' before hs' hbefore ho
      omega
    · have heq : before' = before := Option.some.inj (hbefore'.symm.trans hbefore)
      subst heq
      have := h.le hs' hbefore
      omega

/-- A write of a higher version leaves no other value with its version. -/
theorem Exact.write [DecidableEq ι] (h : l.Coherent version) (i : ι) {s : σ}
    (hlt : ∀ current, l.value = some current → version current < version s) :
    (l.write version i s).Exact version := by
  intro j s' current hs hv hver
  cases hv
  by_cases hj : j = i
  · subst hj
    simp only [Ledger.write, Function.update_self, Option.some.injEq, Prod.mk.injEq] at hs
    exact hs.2.symm
  · simp only [Ledger.write, Function.update_of_ne hj] at hs
    obtain ⟨before, hbefore, hs'⟩ := h.seen_before hs
    have := h.le hs' hbefore
    have := hlt before hbefore
    omega

/-! ## What a compare-and-set replaces -/

/-- Where the process has seen the present life and expects no more than it saw, a write that is accepted
replaces what the process saw. -/
theorem value_eq_seen (hc : l.Coherent version) (hx : l.Exact version) {i : ι} (hi : l.Current i) {e : Nat}
    (he : ∀ n s, l.seen i = some (n, s) → e ≤ version s) (ha : l.Accepts version e) :
    l.value = (l.seen i).map Prod.snd := by
  rcases hi with ⟨hv, hs⟩ | ⟨hv, s, hs⟩
  · rw [hv, hs]
    rfl
  · rcases ha with ⟨hv', _⟩ | ⟨current, hv', hcur⟩
    · exact absurd hv' hv
    · have hle := hc.le hs hv'
      have hexp := he _ s hs
      rw [hv', hs, hx i s current hs hv' (by omega)]
      rfl

/-- The compare-and-set of a process that expects no more than it saw is rejected exactly when it is late. -/
theorem not_accepts_iff_late (hc : l.Coherent version) {i : ι} {e : Nat}
    (he : ∀ n s, l.seen i = some (n, s) → e ≤ version s) :
    ¬l.Accepts version e ↔ l.Late version i e := by
  have haccepts : l.Accepts version e ↔ (l.value.map version).getD 0 = e := by
    unfold Accepts
    cases l.value <;> simp [eq_comm]
  by_cases hsees : ∃ current s, l.value = some current ∧ l.seen i = some (l.life, s)
  · obtain ⟨current, s, hv, hs⟩ := hsees
    have hlate : l.Late version i e ↔ l.overtaken i ∨ version s ≠ e := by
      constructor
      · rintro (⟨_, s', _, hs', h⟩ | ⟨h, _⟩)
        · rw [hs] at hs'
          cases hs'
          exact h
        · exact absurd hs (h current s hv)
      · exact fun h => Or.inl ⟨current, s, hv, hs, h⟩
    rw [hlate, haccepts, hv]
    have hexp := he _ s hs
    by_cases ho : l.overtaken i
    · have hlt := hc.behind i s current hs hv ho
      simp only [ho, true_or, iff_true, Option.map_some, Option.getD_some]
      omega
    · have heq := hc.still i s current hs hv ho
      simp [ho, heq]
  · have hnone : ∀ current s, l.value = some current → l.seen i ≠ some (l.life, s) :=
      fun current s hv hs => hsees ⟨current, s, hv, hs⟩
    rw [haccepts]
    constructor
    · exact fun h => Or.inr ⟨hnone, h⟩
    · rintro (⟨current, s, hv, hs, _⟩ | ⟨_, h⟩)
      · exact absurd hs (hnone current s hv)
      · exact h

end Ledger

end Jefferies.Versioning

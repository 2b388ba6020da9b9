import Jefferies.Interaction.Monitor
import Jefferies.Transition.Run

/-!
# Systems of processes

Processes share a world. One step answers the call of one process, hands an input to one that waits,
lets one crash, or changes the world from outside; so the steps of the processes interleave in every way.

`Protocol` is the rely-guarantee rule for such systems: every process obeys a monitor, and ghost state,
computed from the steps, relates the world to what each process's monitor knows.
-/

namespace Jefferies.Interaction

open Transition

variable {W S I C L E : Type} {R : E → Type} {α Γ G : Type}

/-- The world and the processes, by their number; a crashed process is `none`. -/
structure Config (W S : Type) {E : Type} (R : E → Type) (α : Type) where
  world : W
  procs : List (Option (Prog S R (Option α)))

inductive Act (I C L : Type) where
  | answer (i : Nat) (c : C)
  | deliver (i : Nat) (input : I)
  | crash (i : Nat)
  | outside (l : L)

/-- How the world answers calls, which the choice `c` may influence, what inputs it has for a process
that waits, which processes a call starts, and what happens from outside. -/
structure System (W S I C L : Type) {E : Type} (R : E → Type) (α : Type) where
  respond : W → S → (e : E) → C → Option (R e × W)
  accept : W → S → I → Option W
  handle : I → S → Prog S R (Option α)
  spawned : E → List (Prog S R (Option α))
  outside : W → L → Option (W × List (Prog S R (Option α)))

namespace System

variable (sys : System W S I C L R α)

/-- The configuration after an answer: the process goes on and those it started are added. -/
def answered (σ : Config W S R α) (i : Nat) {e : E} (k : R e → Prog S R (Option α)) (a : R e × W) :
    Config W S R α :=
  ⟨a.2, σ.procs.set i (some (k a.1)) ++ (sys.spawned e).map some⟩

def step (σ : Config W S R α) : Act I C L → Option (Config W S R α)
  | .answer i c =>
      match σ.procs[i]? with
      | some (some (.call s e k)) => (sys.respond σ.world s e c).map (sys.answered σ i k)
      | _ => none
  | .deliver i input =>
      match σ.procs[i]? with
      | some (some (.ret s none)) =>
          (sys.accept σ.world s input).map fun w => ⟨w, σ.procs.set i (some (sys.handle input s))⟩
      | _ => none
  | .crash i =>
      match σ.procs[i]? with
      | some (some _) => some ⟨σ.world, σ.procs.set i none⟩
      | _ => none
  | .outside l => (sys.outside σ.world l).map fun a => ⟨a.1, σ.procs ++ a.2.map some⟩

variable {sys}

/-! ## What a step can be -/

theorem step_answer {σ σ' : Config W S R α} {i : Nat} {c : C} (h : sys.step σ (.answer i c) = some σ') :
    ∃ s e k a, σ.procs[i]? = some (some (.call s e k)) ∧ sys.respond σ.world s e c = some a ∧
      σ' = sys.answered σ i k a := by
  simp only [step] at h
  split at h
  · rename_i s e k hp
    obtain ⟨a, ha, rfl⟩ := Option.map_eq_some_iff.mp h
    exact ⟨s, e, k, a, hp, ha, rfl⟩
  · exact absurd h (by simp)

theorem step_deliver {σ σ' : Config W S R α} {i : Nat} {input : I}
    (h : sys.step σ (.deliver i input) = some σ') :
    ∃ s w, σ.procs[i]? = some (some (.ret s none)) ∧ sys.accept σ.world s input = some w ∧
      σ' = ⟨w, σ.procs.set i (some (sys.handle input s))⟩ := by
  simp only [step] at h
  split at h
  · rename_i s hp
    obtain ⟨w, hw, rfl⟩ := Option.map_eq_some_iff.mp h
    exact ⟨s, w, hp, hw, rfl⟩
  · exact absurd h (by simp)

theorem step_crash {σ σ' : Config W S R α} {i : Nat} (h : sys.step σ (.crash i) = some σ') :
    σ' = ⟨σ.world, σ.procs.set i none⟩ := by
  simp only [step] at h
  split at h
  · exact (Option.some.inj h).symm
  · exact absurd h (by simp)

theorem step_outside {σ σ' : Config W S R α} {l : L} (h : sys.step σ (.outside l) = some σ') :
    ∃ a, sys.outside σ.world l = some a ∧ σ' = ⟨a.1, σ.procs ++ a.2.map some⟩ := by
  obtain ⟨a, ha, rfl⟩ := Option.map_eq_some_iff.mp h
  exact ⟨a, ha, rfl⟩

end System

/-! ## The rely-guarantee rule -/

/-- A protocol for the processes of a system: an invariant of the configuration, what a process's monitor
state says about the world, and that every step of a process that keeps its monitor's promise keeps both. -/
structure Protocol (sys : System W S I C L R α) (M : Monitor Γ S I R) (G : Type) where
  post : Γ → S → Option α → Prop
  next : G → Step (Config W S R α) (Act I C L) → G
  inv : G → Config W S R α → Prop
  rel : G → W → Nat → Γ → Prop
  handlers : ∀ γ s i, post γ s none → M.assume γ (.received s i) →
    M.Obeys (sys.handle i s) (M.next γ (.received s i)) post
  answer : ∀ {g σ i c s e k a γ}, inv g σ → rel g σ.world i γ →
    σ.procs[i]? = some (some (.call s e k)) → M.ok γ s e → sys.respond σ.world s e c = some a →
    M.assume γ (.answered s e a.1) ∧
      inv (next g ⟨σ, .answer i c, sys.answered σ i k a⟩) (sys.answered σ i k a) ∧
      rel (next g ⟨σ, .answer i c, sys.answered σ i k a⟩) a.2 i (M.next γ (.answered s e a.1)) ∧
      (∀ j γ', j ≠ i → j < σ.procs.length → rel g σ.world j γ' →
        rel (next g ⟨σ, .answer i c, sys.answered σ i k a⟩) a.2 j γ') ∧
      ∀ j p, (sys.spawned e)[j]? = some p → ∃ γ₀, M.Obeys p γ₀ post ∧
        rel (next g ⟨σ, .answer i c, sys.answered σ i k a⟩) a.2 (σ.procs.length + j) γ₀
  deliver : ∀ {g σ i input s w γ}, inv g σ → rel g σ.world i γ → post γ s none →
    σ.procs[i]? = some (some (.ret s none)) → sys.accept σ.world s input = some w →
    M.assume γ (.received s input) ∧
      inv (next g ⟨σ, .deliver i input, ⟨w, σ.procs.set i (some (sys.handle input s))⟩⟩)
        ⟨w, σ.procs.set i (some (sys.handle input s))⟩ ∧
      rel (next g ⟨σ, .deliver i input, ⟨w, σ.procs.set i (some (sys.handle input s))⟩⟩) w i
        (M.next γ (.received s input)) ∧
      ∀ j γ', j ≠ i → j < σ.procs.length → rel g σ.world j γ' →
        rel (next g ⟨σ, .deliver i input, ⟨w, σ.procs.set i (some (sys.handle input s))⟩⟩) w j γ'
  crash : ∀ {g σ i}, inv g σ →
    inv (next g ⟨σ, .crash i, ⟨σ.world, σ.procs.set i none⟩⟩) ⟨σ.world, σ.procs.set i none⟩ ∧
      ∀ j γ', j ≠ i → j < σ.procs.length → rel g σ.world j γ' →
        rel (next g ⟨σ, .crash i, ⟨σ.world, σ.procs.set i none⟩⟩) σ.world j γ'
  outside : ∀ {g σ l a}, inv g σ → sys.outside σ.world l = some a →
    inv (next g ⟨σ, .outside l, ⟨a.1, σ.procs ++ a.2.map some⟩⟩) ⟨a.1, σ.procs ++ a.2.map some⟩ ∧
      (∀ j γ', j < σ.procs.length → rel g σ.world j γ' →
        rel (next g ⟨σ, .outside l, ⟨a.1, σ.procs ++ a.2.map some⟩⟩) a.1 j γ') ∧
      ∀ j p, a.2[j]? = some p → ∃ γ₀, M.Obeys p γ₀ post ∧
        rel (next g ⟨σ, .outside l, ⟨a.1, σ.procs ++ a.2.map some⟩⟩) a.1 (σ.procs.length + j) γ₀

namespace Protocol

variable {sys : System W S I C L R α} {M : Monitor Γ S I R} (P : Protocol sys M G)

/-- The invariant holds, and every process that is alive keeps the promise from what it knows. -/
def Holds (g : G) (σ : Config W S R α) : Prop :=
  P.inv g σ ∧ ∀ i p, σ.procs[i]? = some (some p) →
    ∃ γ, P.rel g σ.world i γ ∧ M.Obeys p γ P.post

end Protocol

/-- A process in the list after process `i` was replaced and others were added. -/
theorem getElem?_set_append {β : Type} {l new : List β} {i j : Nat} {b x : β}
    (h : (l.set i b ++ new)[j]? = some x) :
    (j = i ∧ i < l.length ∧ x = b) ∨ (j ≠ i ∧ j < l.length ∧ l[j]? = some x) ∨
      ∃ m, j = l.length + m ∧ new[m]? = some x := by
  by_cases hj : j < l.length
  · rw [List.getElem?_append_left (by simpa using hj)] at h
    by_cases hji : j = i
    · subst hji
      rw [List.getElem?_set_self hj] at h
      exact Or.inl ⟨rfl, hj, (Option.some.inj h).symm⟩
    · rw [List.getElem?_set_ne (fun h' => hji h'.symm)] at h
      exact Or.inr (Or.inl ⟨hji, hj, h⟩)
  · rw [List.getElem?_append_right (by simpa using hj)] at h
    exact Or.inr (Or.inr ⟨j - l.length, by omega, by simpa using h⟩)

theorem getElem?_append_cases {β : Type} {l new : List β} {j : Nat} {x : β}
    (h : (l ++ new)[j]? = some x) :
    (j < l.length ∧ l[j]? = some x) ∨ ∃ m, j = l.length + m ∧ new[m]? = some x := by
  by_cases hj : j < l.length
  · exact Or.inl ⟨hj, by rwa [List.getElem?_append_left hj] at h⟩
  · rw [List.getElem?_append_right (by omega)] at h
    exact Or.inr ⟨j - l.length, by omega, h⟩

namespace Protocol

variable {sys : System W S I C L R α} {M : Monitor Γ S I R} {P : Protocol sys M G}

theorem Holds.step {g : G} {σ σ' : Config W S R α} {l : Act I C L} (h : P.Holds g σ)
    (hs : sys.step σ l = some σ') : P.Holds (P.next g ⟨σ, l, σ'⟩) σ' := by
  obtain ⟨hinv, hprocs⟩ := h
  cases l with
  | answer i c =>
      obtain ⟨s, e, k, a, hp, ha, rfl⟩ := System.step_answer hs
      obtain ⟨γ, hrel, hok, hk⟩ := hprocs i _ hp
      obtain ⟨hassume, hinv', hself, hothers, hnew⟩ := P.answer hinv hrel hp hok ha
      refine ⟨hinv', fun j p hj => ?_⟩
      rcases getElem?_set_append hj with ⟨rfl, _, hpk⟩ | ⟨hji, hlt, hpj⟩ | ⟨m, rfl, hm⟩
      · cases hpk
        exact ⟨_, hself, hk _ hassume⟩
      · obtain ⟨γ', hrel', hob⟩ := hprocs j p hpj
        exact ⟨γ', hothers j γ' hji hlt hrel', hob⟩
      · rw [List.getElem?_map, Option.map_eq_some_iff] at hm
        obtain ⟨p', hm, hpp⟩ := hm
        cases hpp
        obtain ⟨γ₀, hob, hrel₀⟩ := hnew m p hm
        exact ⟨γ₀, hrel₀, hob⟩
  | deliver i input =>
      obtain ⟨s, w, hp, hw, rfl⟩ := System.step_deliver hs
      obtain ⟨γ, hrel, hob⟩ := hprocs i _ hp
      obtain ⟨hassume, hinv', hself, hothers⟩ := P.deliver hinv hrel hob hp hw
      refine ⟨hinv', fun j p hj => ?_⟩
      rw [← List.append_nil (σ.procs.set i _)] at hj
      rcases getElem?_set_append hj with ⟨rfl, _, hpk⟩ | ⟨hji, hlt, hpj⟩ | ⟨m, rfl, hm⟩
      · cases hpk
        exact ⟨_, hself, P.handlers _ _ _ hob hassume⟩
      · obtain ⟨γ', hrel', hob'⟩ := hprocs j p hpj
        exact ⟨γ', hothers j γ' hji hlt hrel', hob'⟩
      · simp at hm
  | crash i =>
      obtain rfl := System.step_crash hs
      obtain ⟨hinv', hothers⟩ := P.crash (i := i) hinv
      refine ⟨hinv', fun j p hj => ?_⟩
      rw [← List.append_nil (σ.procs.set i _)] at hj
      rcases getElem?_set_append hj with ⟨_, _, hpk⟩ | ⟨hji, hlt, hpj⟩ | ⟨m, rfl, hm⟩
      · cases hpk
      · obtain ⟨γ', hrel', hob'⟩ := hprocs j p hpj
        exact ⟨γ', hothers j γ' hji hlt hrel', hob'⟩
      · simp at hm
  | outside l =>
      obtain ⟨a, ha, rfl⟩ := System.step_outside hs
      obtain ⟨hinv', hothers, hnew⟩ := P.outside hinv ha
      refine ⟨hinv', fun j p hj => ?_⟩
      rcases getElem?_append_cases hj with ⟨hlt, hpj⟩ | ⟨m, rfl, hm⟩
      · obtain ⟨γ', hrel', hob'⟩ := hprocs j p hpj
        exact ⟨γ', hothers j γ' hlt hrel', hob'⟩
      · rw [List.getElem?_map, Option.map_eq_some_iff] at hm
        obtain ⟨p', hm, hpp⟩ := hm
        cases hpp
        obtain ⟨γ₀, hob, hrel₀⟩ := hnew m p hm
        exact ⟨γ₀, hrel₀, hob⟩

/-- A protocol that holds at the start holds along every run. -/
theorem holds {init : Config W S R α → Prop} {g₀ : G} (hinit : ∀ σ, init σ → P.Holds g₀ σ)
    {h : List (Step (Config W S R α) (Act I C L))} {σ : Config W S R α}
    (hr : Run sys.step init h σ) : P.Holds (history P.next g₀ h) σ := by
  apply hr.invariant
  · exact hinit
  · intro _ _ _ _ _ hholds hs
    rw [history_snoc]
    exact hholds.step hs

end Protocol

end Jefferies.Interaction

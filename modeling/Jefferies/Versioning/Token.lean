import Jefferies.Transition.Run
import Mathlib.Data.List.Pairwise
import Mathlib.Logic.Function.Basic

/-!
# Fencing tokens

A keeper lends each key to one server at a time, and every loan has a number. The numbers are fencing tokens
when a later loan of a key has a higher number and only the last loan of a key can be renewed, and that only
until it is over.
-/

namespace Jefferies.Versioning

open Transition

inductive LeaseOp (κ ι : Type) where
  | acquire (key : κ) (server : ι)
  | renew (key : κ) (server : ι) (version : Nat)
  | release (key : κ)
  | expire (key : κ)

/-- What a keeper stores and how it answers. A keeper whose leases do not expire refuses to let one expire. -/
structure Keeper (κ ι σ : Type) where
  lease : σ → κ → Option (Nat × ι)
  acquire : σ → κ → ι → Option Nat × σ
  renew : σ → κ → ι → Nat → Bool
  release : σ → κ → σ
  expire : σ → κ → Option σ

variable {κ ι σ : Type}

/-- The grants of each key, oldest first, and whether the last one has expired or been released. -/
structure Loans (κ ι : Type) where
  granted : κ → List (Nat × ι)
  finished : κ → Bool

namespace Loans

def none : Loans κ ι := ⟨fun _ => [], fun _ => true⟩

variable [DecidableEq κ] (g : Loans κ ι)

def grant (k : κ) (v : Nat) (i : ι) : Loans κ ι :=
  ⟨Function.update g.granted k (g.granted k ++ [(v, i)]), Function.update g.finished k false⟩

def finish (k : κ) : Loans κ ι := { g with finished := Function.update g.finished k true }

end Loans

namespace Keeper

variable (K : Keeper κ ι σ)

def step (s : σ) : LeaseOp κ ι → Option σ
  | .acquire k i => some (K.acquire s k i).2
  | .renew _ _ _ => some s
  | .release k => some (K.release s k)
  | .expire k => K.expire s k

/-- The loans after an operation. -/
def next [DecidableEq κ] (g : Loans κ ι) (t : Step σ (LeaseOp κ ι)) : Loans κ ι :=
  match t.label with
  | .acquire k i =>
      match (K.acquire t.before k i).1 with
      | some v => g.grant k v i
      | none => g
  | .renew _ _ _ => g
  | .release k => g.finish k
  | .expire k => g.finish k

/-- The loans after the operations. -/
def loans [DecidableEq κ] (h : List (Step σ (LeaseOp κ ι))) : Loans κ ι := history K.next .none h

/-- A keeper that hands out a number higher than the last one of the key, where no lease is stored. -/
structure Lawful [DecidableEq κ] (last : σ → κ → Nat) : Prop where
  granted : ∀ {s k i v}, (K.acquire s k i).1 = some v → K.lease s k = none ∧ last s k < v ∧
    last (K.acquire s k i).2 k = v ∧ (∀ k', last s k' ≤ last (K.acquire s k i).2 k') ∧
    K.lease (K.acquire s k i).2 = Function.update (K.lease s) k (some (v, i))
  denied : ∀ {s k i}, (K.acquire s k i).1 = none → (K.acquire s k i).2 = s
  renewed : ∀ {s k i v}, K.renew s k i v = true ↔ K.lease s k = some (v, i)
  released : ∀ s k, last (K.release s k) = last s ∧ K.lease (K.release s k) = Function.update (K.lease s) k none
  expired : ∀ {s k s'}, K.expire s k = some s' →
    last s' = last s ∧ K.lease s' = Function.update (K.lease s) k none

/-- What fencing tokens promise of a state that was reached with the loans. -/
structure Fenced (g : Loans κ ι) (s : σ) : Prop where
  increasing : ∀ k, ((g.granted k).map Prod.fst).Pairwise (· < ·)
  exclusive : ∀ k i v, (K.acquire s k i).1 = some v → K.lease s k = none ∧ g.finished k = true
  renewed : ∀ k i v, K.renew s k i v = true ↔ (g.granted k).getLast? = some (v, i) ∧ g.finished k = false
  superseded : ∀ k v, v ∈ (g.granted k).dropLast.map Prod.fst → ∀ i, K.renew s k i v = false

/-- The stored lease is the last loan of its key until that is over, and no loan has a number above the last. -/
structure Matches (last : σ → κ → Nat) (g : Loans κ ι) (s : σ) : Prop where
  bounded : ∀ k v i, (v, i) ∈ g.granted k → v ≤ last s k
  increasing : ∀ k, ((g.granted k).map Prod.fst).Pairwise (· < ·)
  stored : ∀ k, K.lease s k = if g.finished k then none else (g.granted k).getLast?
  lent : ∀ k, g.finished k = false → g.granted k ≠ []

variable {K} {last : σ → κ → Nat} {g : Loans κ ι} {s s' : σ}

/-! ## One operation -/

theorem Matches.start (h : ∀ k, K.lease s k = none) : K.Matches last .none s where
  bounded _ _ _ hmem := by cases hmem
  increasing _ := List.Pairwise.nil
  stored k := h k
  lent _ hover := by cases hover

variable [DecidableEq κ]

theorem Matches.finish (h : K.Matches last g s) {k : κ} (hlast : last s' = last s)
    (hlease : K.lease s' = Function.update (K.lease s) k none) : K.Matches last (g.finish k) s' where
  bounded := by
    rw [hlast]
    exact h.bounded
  increasing := h.increasing
  stored k' := by
    rw [hlease]
    by_cases hk : k' = k
    · simp [Loans.finish, hk]
    · simp [Loans.finish, hk, h.stored k']
  lent k' hover := by
    by_cases hk : k' = k
    · simp [Loans.finish, hk] at hover
    · simp only [Loans.finish, Function.update_of_ne hk] at hover
      exact h.lent k' hover

theorem Matches.grant (h : K.Matches last g s) (hK : K.Lawful last) {k : κ} {i : ι} {v : Nat}
    (hv : (K.acquire s k i).1 = some v) : K.Matches last (g.grant k v i) (K.acquire s k i).2 := by
  obtain ⟨_, hlt, hnew, hmono, hlease⟩ := hK.granted hv
  have hbelow : ∀ x ∈ g.granted k, x.1 < v := fun x hx => Nat.lt_of_le_of_lt (h.bounded k x.1 x.2 hx) hlt
  constructor
  · intro k' v' i' hmem
    by_cases hk : k' = k
    · subst hk
      simp only [Loans.grant, Function.update_self, List.mem_append, List.mem_singleton, Prod.mk.injEq] at hmem
      rw [hnew]
      rcases hmem with hmem | ⟨rfl, rfl⟩
      · exact Nat.le_of_lt (hbelow _ hmem)
      · exact Nat.le_refl v'
    · simp only [Loans.grant, Function.update_of_ne hk] at hmem
      exact Nat.le_trans (h.bounded k' v' i' hmem) (hmono k')
  · intro k'
    by_cases hk : k' = k
    · subst hk
      simp only [Loans.grant, Function.update_self, List.map_append, List.map_cons, List.map_nil,
        List.pairwise_append, List.pairwise_singleton, List.mem_singleton]
      have hcross : ∀ a ∈ (g.granted k').map Prod.fst, ∀ b, b = v → a < b := by
        intro a ha b hb
        obtain ⟨x, hx, rfl⟩ := List.mem_map.mp ha
        rw [hb]
        exact hbelow x hx
      exact ⟨h.increasing k', trivial, hcross⟩
    · simp only [Loans.grant, Function.update_of_ne hk]
      exact h.increasing k'
  · intro k'
    rw [hlease]
    by_cases hk : k' = k
    · simp [Loans.grant, hk]
    · simp [Loans.grant, hk, h.stored k']
  · intro k' hover
    by_cases hk : k' = k
    · simp [Loans.grant, hk]
    · simp only [Loans.grant, Function.update_of_ne hk] at hover ⊢
      exact h.lent k' hover

/-- Every operation leaves the stored lease the last loan that is not over. -/
theorem Matches.next (h : K.Matches last g s) (hK : K.Lawful last) {l : LeaseOp κ ι}
    (hs : K.step s l = some s') : K.Matches last (K.next g ⟨s, l, s'⟩) s' := by
  cases l with
  | acquire k i =>
      cases hs
      cases hv : (K.acquire s k i).1 with
      | some v =>
          simp only [Keeper.next, hv]
          exact h.grant hK hv
      | none =>
          simp only [Keeper.next, hv, hK.denied hv]
          exact h
  | renew k i v =>
      cases hs
      exact h
  | release k =>
      cases hs
      exact h.finish (hK.released s k).1 (hK.released s k).2
  | expire k => exact h.finish (hK.expired hs).1 (hK.expired hs).2

/-- Only the last loan of a key is stored, so only it can be renewed. -/
theorem Matches.fenced (h : K.Matches last g s) (hK : K.Lawful last) : K.Fenced g s := by
  have hrenewed : ∀ k i v, K.renew s k i v = true ↔ (g.granted k).getLast? = some (v, i) ∧ g.finished k = false := by
    intro k i v
    rw [hK.renewed, h.stored k]
    cases g.finished k <;> simp
  constructor
  · exact h.increasing
  · intro k i v hv
    have hnone := (hK.granted hv).1
    constructor
    · exact hnone
    · rw [h.stored k] at hnone
      cases hover : g.finished k with
      | true => rfl
      | false => simp [hover, h.lent k hover] at hnone
  · exact hrenewed
  · intro k v hmem i
    by_contra hrenew
    obtain ⟨hlast, _⟩ := (hrenewed k i v).mp (by simpa using hrenew)
    have hsplit : (g.granted k).dropLast.map Prod.fst ++ [v] = (g.granted k).map Prod.fst := by
      rw [← List.dropLast_append_getLast? _ hlast]
      simp
    have hinc := h.increasing k
    rw [← hsplit, List.pairwise_append] at hinc
    exact Nat.lt_irrefl v (hinc.2.2 v hmem v (List.mem_singleton_self v))

/-! ## All runs -/

/-- Along every run of a lawful keeper that starts without leases, the numbers are fencing tokens. -/
theorem Lawful.fenced (hK : K.Lawful last) {init : σ → Prop} (hinit : ∀ s, init s → ∀ k, K.lease s k = none)
    {h : List (Step σ (LeaseOp κ ι))} (hr : Run K.step init h s) : K.Fenced (K.loans h) s := by
  have hmatches : K.Matches last (K.loans h) s := by
    induction hr with
    | start hi => exact Matches.start (hinit _ hi)
    | snoc _ hs ih =>
        rw [loans, history_snoc]
        exact ih.next hK hs
  exact hmatches.fenced hK

end Keeper

end Jefferies.Versioning

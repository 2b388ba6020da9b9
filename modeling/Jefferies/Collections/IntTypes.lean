import Mathlib.Algebra.Group.Nat.Defs
import Mathlib.Algebra.Ring.Int.Defs
import Mathlib.Tactic.ByContra

/-!
# Integer types

A cast to an integer type wraps around, and a checked conversion refuses what the type does not have. What is
computed of the converted number shows the difference only where it is defined at another number of the same class.
-/

namespace Jefferies

structure IntType where
  min : Int
  max : Int
  le : min ≤ max

namespace IntType

def i64 : IntType := ⟨-2 ^ 63, 2 ^ 63 - 1, by decide⟩

def u32 : IntType := ⟨0, 2 ^ 32 - 1, by decide⟩

/-- How many values the type has. -/
def card (self : IntType) : Int := self.max - self.min + 1

def Fits (self : IntType) (x : Int) : Prop := self.min ≤ x ∧ x ≤ self.max

instance (self : IntType) (x : Int) : Decidable (self.Fits x) := inferInstanceAs (Decidable (_ ∧ _))

/-- `x as T`. -/
def cast (self : IntType) (x : Int) : Int := self.min + (x - self.min) % self.card

/-- `T::try_from(x).ok()`. -/
def tryFrom (self : IntType) (x : Int) : Option Int := if self.Fits x then some x else none

theorem i64_fits_iff {x : Int} : i64.Fits x ↔ -9223372036854775808 ≤ x ∧ x ≤ 9223372036854775807 := Iff.rfl

theorem u32_fits_iff {x : Int} : u32.Fits x ↔ 0 ≤ x ∧ x ≤ 4294967295 := Iff.rfl

@[simp] theorem i64_card : i64.card = 18446744073709551616 := rfl

variable {self : IntType} {x y k : Int} {α : Type} {f : Int → Option α}

theorem card_pos (self : IntType) : 0 < self.card := by
  have hle := self.le
  unfold card
  omega

theorem fits_cast (self : IntType) (x : Int) : self.Fits (self.cast x) := by
  have hnonneg := Int.emod_nonneg (x - self.min) (Int.ne_of_gt self.card_pos)
  have hlt := Int.emod_lt_of_pos (x - self.min) self.card_pos
  unfold cast Fits
  unfold card at *
  omega

/-- The cast goes to the number of the type that differs by a multiple of its size. -/
theorem cast_eq_iff : self.cast x = y ↔ self.Fits y ∧ ∃ k, y = x - k * self.card := by
  constructor
  · rintro rfl
    refine ⟨self.fits_cast x, (x - self.min) / self.card, ?_⟩
    have hdiv := Int.emod_add_mul_ediv (x - self.min) self.card
    rw [cast, Int.mul_comm]
    omega
  · rintro ⟨⟨hmin, hmax⟩, k, rfl⟩
    have hclass : x - self.min = (x - k * self.card - self.min) + self.card * k := by
      rw [Int.mul_comm self.card k]
      omega
    rw [cast, hclass, Int.add_mul_emod_self_left, Int.emod_eq_of_lt (by omega) (by unfold card at *; omega)]
    omega

theorem cast_of_fits (h : self.Fits x) : self.cast x = x := cast_eq_iff.mpr ⟨h, 0, by simp⟩

/-- The cast to 64 bits is the balanced residue. -/
theorem i64_cast (x : Int) : i64.cast x = x.bmod (2 ^ 64) := by
  have hmin : -((2 ^ 64 : Nat) / 2 : Int) ≤ x.bmod (2 ^ 64) := Int.le_bmod (by decide)
  have hmax : x.bmod (2 ^ 64) < ((2 ^ 64 : Nat) + 1) / 2 := Int.bmod_lt (by decide)
  refine cast_eq_iff.mpr ⟨i64_fits_iff.mpr (by omega), x.bdiv (2 ^ 64), ?_⟩
  exact Int.bmod_eq_self_sub_bdiv_mul x (2 ^ 64)

/-- A class has one number in the type. -/
theorem Fits.apart (h : self.Fits x) (hk : self.Fits (x - k * self.card)) : k = 0 := by
  have hcast : self.cast x = x - k * self.card := cast_eq_iff.mpr ⟨hk, k, rfl⟩
  have hmul : k * self.card = 0 := by
    rw [cast_of_fits h] at hcast
    omega
  exact (Int.mul_eq_zero.mp hmul).resolve_right (Int.ne_of_gt self.card_pos)

/-- A checked conversion takes nothing away from what is defined within the type. -/
theorem tryFrom_bind (hf : ∀ y, f y ≠ none → self.Fits y) (x : Int) : (self.tryFrom x).bind f = f x := by
  unfold tryFrom
  split
  · rfl
  · rename_i hx
    by_contra hne
    exact hx (hf x (Ne.symm hne))

/-- A cast makes no difference to what is defined within the type, unless that is defined at another number of the
class. -/
theorem cast_agrees_iff (hf : ∀ y, f y ≠ none → self.Fits y) :
    f (self.cast x) = f x ↔ ∀ k, k ≠ 0 → f (x - k * self.card) = none := by
  constructor
  · intro h k hk
    by_contra hne
    have hcast : self.cast x = x - k * self.card := cast_eq_iff.mpr ⟨hf _ hne, k, rfl⟩
    have hx : f x ≠ none := by rwa [← h, hcast]
    exact hk ((hf x hx).apart (hf _ hne))
  · intro h
    obtain ⟨hfits, k, hcast⟩ := cast_eq_iff.mp (rfl : self.cast x = self.cast x)
    by_cases hk : k = 0
    · simp [hcast, hk]
    · have hx : f x = none := by
        by_contra hne
        exact hk ((hf x hne).apart (hcast ▸ hfits))
      rw [hcast, hx, h k hk]

end IntType

end Jefferies

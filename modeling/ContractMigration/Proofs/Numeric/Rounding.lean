import ContractMigration.Numeric.Rounding
import Mathlib.Algebra.Order.Ring.Rat
import Mathlib.Tactic.Linarith

/-!
# What rounding gives

The integer that a rational is rounded to is no further than one half from it, and it is even when there is another
integer as near as that.
-/

namespace ContractMigration.Numeric

/-- An integer nearest to a rational, and even if there are two. -/
structure RoundedHalfEven (x : ℚ) (n : ℤ) : Prop where
  near : |x - n| ≤ 1 / 2
  tie : |x - n| = 1 / 2 → Even n

theorem RoundedHalfEven.unique {x : ℚ} {m n : ℤ} (hm : RoundedHalfEven x m) (hn : RoundedHalfEven x n) : m = n := by
  wlog hlt : m < n generalizing m n
  · rcases lt_trichotomy m n with h | h | h
    · exact this hm hn h
    · exact h
    · exact (this hn hm h).symm
  have hsucc : ((m + 1 : ℤ) : ℚ) ≤ n := Int.cast_le.2 hlt
  push_cast at hsucc
  have hmnear := abs_le.1 hm.near
  have hnnear := abs_le.1 hn.near
  -- only halfway between two neighbours there is room for both
  have hnext : n = m + 1 := by
    have hle : (n : ℚ) ≤ m + 1 := by linarith
    exact le_antisymm (by exact_mod_cast hle) hlt
  have hmeven := hm.tie (by rw [abs_eq (by norm_num)]; left; linarith)
  have hneven := hn.tie (by rw [abs_eq (by norm_num)]; right; linarith)
  exact absurd hneven (by rw [hnext, Int.even_add_one]; exact not_not_intro hmeven)

theorem roundedHalfEven_roundHalfEven (x : ℚ) : RoundedHalfEven x (roundHalfEven x) := by
  have hbelow : (x.floor : ℚ) ≤ x := Rat.floor_le x
  have habove : x < x.floor + 1 := by linarith [@Rat.lt_floor x]
  have hnext : ((x.floor + 1 : ℤ) : ℚ) = x.floor + 1 := by push_cast; rfl
  unfold roundHalfEven
  dsimp only
  split_ifs with hlow hhigh hparity
  case pos =>
    refine ⟨abs_le.2 ⟨by linarith, by linarith⟩, fun htie => ?_⟩
    rw [abs_of_nonneg (by linarith)] at htie
    exact absurd hlow (by linarith)
  case pos =>
    refine ⟨abs_le.2 ⟨by linarith, by linarith⟩, fun htie => ?_⟩
    rw [abs_of_nonpos (by linarith)] at htie
    exact absurd hhigh (by linarith)
  case pos => exact ⟨abs_le.2 ⟨by linarith, by linarith⟩, fun _ => Int.even_iff.2 hparity⟩
  case neg => exact ⟨abs_le.2 ⟨by linarith, by linarith⟩, fun _ => Int.even_iff.2 (by omega)⟩

/-- Rounding gives the integer nearest to a rational, and of two such integers the even one. -/
theorem eq_roundHalfEven_iff {x : ℚ} {n : ℤ} : n = roundHalfEven x ↔ RoundedHalfEven x n :=
  ⟨fun h => h ▸ roundedHalfEven_roundHalfEven x, fun h => h.unique (roundedHalfEven_roundHalfEven x)⟩

end ContractMigration.Numeric

import Mathlib.Data.Rat.Floor
import Mathlib.Tactic.Linarith

/-!
# Ratings

The new ratings of a game are computed in floating-point arithmetic. Its values are rational
numbers, and every operation rounds its exact result to the nearest double. All that matters here is
that the nearest double of the opposite number is the opposite double: the loser loses what the
winner gains.
-/

namespace KongFuChess.Elo

/-- Rounding to doubles, and the power function of the mathematical library. -/
structure Doubles where
  nearest : ℚ → ℚ
  pow : ℚ → ℚ → ℚ
  nearest_neg : ∀ value, nearest (-value) = -nearest value
  nearest_nearest : ∀ value, nearest (nearest value) = nearest value

/-- `std::round`: halves are rounded away from zero. -/
def round (value : ℚ) : ℤ := if value < 0 then -⌊-value + 1 / 2⌋ else ⌊value + 1 / 2⌋

theorem round_neg (value : ℚ) : round (-value) = -round value := by
  unfold round
  rcases lt_trichotomy value 0 with hneg | rfl | hpos
  · rw [if_neg (by linarith), if_pos hneg, neg_neg]
  · decide +kernel
  · rw [if_pos (by linarith), if_neg (by linarith), neg_neg]

structure EloUpdate where
  winnerNew : ℤ := 0
  loserNew : ℤ := 0
deriving DecidableEq, Repr

variable (double : Doubles)

/-- What the winner was expected to score. -/
def expected (winnerRating loserRating : ℤ) : ℚ :=
  let exponent := double.nearest (((loserRating - winnerRating : ℤ) : ℚ) / 400)
  double.nearest (1 / double.nearest (1 + double.pow 10 exponent))

def computeUpdate (winnerRating loserRating : ℤ) (k : ℚ := 32) : EloUpdate :=
  let expected := expected double winnerRating loserRating
  let winnerNew :=
    winnerRating + round (double.nearest (k * double.nearest (1 - expected)))
  let loserNew :=
    loserRating +
      round (double.nearest (k * double.nearest (0 - double.nearest (1 - expected))))
  ⟨winnerNew, loserNew⟩

/-- What the winner gains. -/
def gain (winnerRating loserRating : ℤ) : ℤ :=
  round (double.nearest (32 * double.nearest (1 - expected double winnerRating loserRating)))

/-- The loser loses what the winner gains. -/
theorem computeUpdate_eq (winnerRating loserRating : ℤ) :
    computeUpdate double winnerRating loserRating =
      ⟨winnerRating + gain double winnerRating loserRating,
        loserRating - gain double winnerRating loserRating⟩ := by
  have hloss (score : ℚ) :
      round (double.nearest (32 * double.nearest (0 - double.nearest score))) =
        -round (double.nearest (32 * double.nearest score)) := by
    rw [zero_sub, double.nearest_neg, double.nearest_nearest, mul_neg, double.nearest_neg,
      round_neg]
  simp only [computeUpdate, gain, hloss, Int.sub_eq_add_neg]

/-- Exact arithmetic, for players with equal ratings. -/
def evenDoubles : Doubles where
  nearest := id
  pow _ _ := 1
  nearest_neg _ := rfl
  nearest_nearest _ := rfl

example : computeUpdate evenDoubles 1200 1200 = ⟨1216, 1184⟩ := by decide +kernel

end KongFuChess.Elo

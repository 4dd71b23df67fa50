import BatchRun.Proofs.Job.Backoff
import BatchRun.Proofs.Number.Exact

/-!
# Pauses that are doubled

If the multiplier is a power of two, all products are exact up to the end of the range, and the pause
behind an attempt is the whole number that the policy stands for.  Beyond the range the power is
infinite.  A base pause that is not zero then reaches the greatest pause, as it should; zero times
infinity is no number, gives way to the greatest pause, and so the pause is the longest one where
there should be none.

**Results.**
* `pause_ofNat`: a whole product stands for itself, or for the greatest pause if that is smaller.
* `delayAfter_of_two_pow`: the pause behind every attempt, and where it is the doubled one.
-/

namespace BatchRun
namespace RetryPolicy

open Number
open Number.Binary64

/-- The base pause, multiplied by `2^k` for each attempt behind the first one, and at most the
greatest pause. -/
def doubled (policy : RetryPolicy) (k attempt : Nat) : Nat :=
  min policy.maxDelay (policy.baseDelay * 2 ^ (k * (attempt - 1)))

/-- No base pause, and a power beyond the range of numbers. -/
def Overgrown (policy : RetryPolicy) (k attempt : Nat) : Prop :=
  policy.baseDelay = 0 ∧ lastPower < k * (attempt - 1)

instance (policy : RetryPolicy) (k attempt : Nat) : Decidable (policy.Overgrown k attempt) :=
  inferInstanceAs (Decidable (_ ∧ _))

theorem doubled_eq_zero
    {policy : RetryPolicy}
    (none : policy.baseDelay = 0)
    (k attempt : Nat) :
    policy.doubled k attempt = 0 := by
  rw [doubled, none, Nat.zero_mul, Nat.min_zero]

section Products

variable {policy : RetryPolicy}

/-- A whole product stands for itself, or for the greatest pause if that is smaller. -/
theorem pause_ofNat
    (cap : policy.maxDelay ≤ 2 ^ 53)
    (n : Nat) :
    policy.pause (ofNat n) = min policy.maxDelay n := by
  have hcut : ∀ m, m ≤ 2 ^ 53 → ((ofNat m).max 0).floorWithin (Nat.pow 2 64 - 1) = m := by
    intro m hm
    rw [(ordered_self m).max_zero, (held_of_le hm).floorWithin (Nat.le_trans hm (by decide))]
  unfold pause
  rcases Nat.le_total policy.maxDelay n with hlarge | hsmall
  · rw [(ordered_ofNat hlarge).min_eq, hcut _ cap, Nat.min_eq_left hlarge]
  · rw [(ordered_ofNat hsmall).min_eq_left, hcut _ (Nat.le_trans hsmall cap),
      Nat.min_eq_right hsmall]

theorem pause_infinity :
    policy.pause infinity = policy.pause (ofNat policy.maxDelay) := by
  have hleast : infinity.min (ofNat policy.maxDelay) = ofNat policy.maxDelay := by
    rw [ofNat, ofRatio, round_eq]
    exact (ordered_infinity _).min_eq
  unfold pause
  rw [hleast, (ordered_self policy.maxDelay).min_eq]

/-- Beyond the range a product stands for the greatest pause, whatever the base pause is. -/
theorem pause_mul_infinity
    (cap : policy.maxDelay ≤ 2 ^ 53)
    (base : policy.baseDelay ≤ 2 ^ 53) :
    policy.pause (ofNat policy.baseDelay * infinity) = policy.maxDelay := by
  have hinfinity : policy.pause infinity = policy.maxDelay := by
    rw [pause_infinity, pause_ofNat cap, Nat.min_self]
  obtain ⟨rank, hrank, -, -⟩ := held_of_le base
  rw [← hinfinity, hrank]
  have hcases : signed false rank * infinity = nan ∨ signed false rank * infinity = infinity :=
    mul_infinite (.inr rfl)
  rcases hcases with hproduct | hproduct
  · rw [hproduct, ← pause_orInfinity]
    rfl
  · rw [hproduct]

end Products

/-- The power behind an attempt up to which the exponent is not negative. -/
theorem powInt_of_two_pow
    (k : Nat)
    {attempt : Nat}
    (early : attempt ≤ lastAttempt) :
    (ofNat (2 ^ k)).powInt (exponentAfter attempt) = ofNat (2 ^ (k * (attempt - 1))) := by
  have hsign : ¬ ((attempt - 1 : Nat) : Int) < 0 := by omega
  rw [exponentAfter_of_le early, powInt, Int.natAbs_natCast, powNat_two_pow]
  exact if_neg hsign

/-- If the multiplier is a power of two and base pause and greatest pause are exact, the pause behind
every attempt up to `2^31` is the doubled one, except that it is the greatest one where there is no
base pause and the power is beyond the range. -/
theorem delayAfter_of_two_pow
    (policy : RetryPolicy)
    (k attempt : Nat)
    (growth : policy.multiplier = ofNat (2 ^ k))
    (base : policy.baseDelay ≤ 2 ^ 53)
    (cap : policy.maxDelay ≤ 2 ^ 53)
    (early : attempt ≤ lastAttempt) :
    policy.delayAfter attempt =
        (if policy.Overgrown k attempt then policy.maxDelay else policy.doubled k attempt) ∧
      (policy.delayAfter attempt = policy.doubled k attempt ↔
        policy.Overgrown k attempt → policy.maxDelay = 0) := by
  have hpause : policy.delayAfter attempt =
      policy.pause (ofNat policy.baseDelay * ofNat (2 ^ (k * (attempt - 1)))) := by
    rw [delayAfter_eq, growth, powInt_of_two_pow k early]
  have hdelay : policy.delayAfter attempt =
      if policy.Overgrown k attempt then policy.maxDelay else policy.doubled k attempt := by
    rw [hpause]
    rcases Nat.lt_or_ge lastPower (k * (attempt - 1)) with hlarge | hsmall
    · rw [two_pow_eq_infinity hlarge, pause_mul_infinity cap base]
      by_cases hbase : policy.baseDelay = 0
      · rw [if_pos ⟨hbase, hlarge⟩]
      · -- The base pause is one at least, and so the product is above every exact number.
        have hpower : 2 ^ 53 ≤ 2 ^ (k * (attempt - 1)) :=
          Nat.pow_le_pow_right Nat.two_pos (Nat.le_trans (by decide) (Nat.le_of_lt hlarge))
        have hproduct : policy.maxDelay ≤ policy.baseDelay * 2 ^ (k * (attempt - 1)) :=
          Nat.le_trans (Nat.le_trans cap hpower)
            (Nat.le_mul_of_pos_left _ (Nat.pos_of_ne_zero hbase))
        rw [if_neg fun h => hbase h.1, doubled, Nat.min_eq_left hproduct]
    · rw [if_neg fun h => Nat.not_lt.mpr hsmall h.2,
        (held_of_le base).mul (held_two_pow hsmall), pause_ofNat cap]
      rfl
  refine ⟨hdelay, ?_⟩
  rw [hdelay]
  split
  case isTrue hgrown =>
      rw [doubled_eq_zero hgrown.1]
      exact ⟨fun h _ => h, fun h => h hgrown⟩
  case isFalse hnot => exact ⟨fun _ h => absurd h hnot, fun _ => rfl⟩

/-- Without a base pause there is none up to attempt 1024, and then half a minute. -/
theorem delayAfter_without_base :
    ({ baseDelay := 0 } : RetryPolicy).multiplier = ofNat (2 ^ 1) ∧
      ({ baseDelay := 0 } : RetryPolicy).delayAfter 1024 = 0 ∧
      ({ baseDelay := 0 } : RetryPolicy).delayAfter 1025 = 30000 := by
  have hgrowth : ({ baseDelay := 0 } : RetryPolicy).multiplier = ofNat (2 ^ 1) :=
    congrArg ofNat (Nat.pow_one 2).symm
  have hdelay := fun attempt early => (delayAfter_of_two_pow { baseDelay := 0 } 1 attempt hgrowth
    (by decide) (by decide) early).1
  refine ⟨hgrowth, ?_, ?_⟩
  · exact (hdelay 1024 (by decide)).trans ((if_neg (by decide)).trans (doubled_eq_zero rfl 1 1024))
  · exact (hdelay 1025 (by decide)).trans (if_pos (by decide))

end RetryPolicy
end BatchRun

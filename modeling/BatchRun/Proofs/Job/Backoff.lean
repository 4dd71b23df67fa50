import BatchRun.Job.Settings
import BatchRun.Proofs.Number.Order

/-!
# Pauses between attempts

Up to the attempt at which the exponent wraps around, no pause is shorter than an earlier one.  The
exponent then starts over at its most negative value, and the pauses go up again from there, all of
them no longer than the first one.

**Type.**
A policy `Rises` if its pauses go up on either side of that attempt and fall across it.

**Results.**
* `delayAfter_mono`: pauses are in the order of the exponents.
* `rising_of_accepted`: every policy among settings that are not rejected `Rises`.
-/

namespace BatchRun
namespace RetryPolicy

open Number
open Number.Binary64

/-- Last attempt behind which the exponent is not negative. -/
def lastAttempt : Nat := 2 ^ 31

/-- How pauses go on from attempt to attempt. -/
structure Rises (policy : RetryPolicy) : Prop where
  /-- No pause is shorter than an earlier one unless the exponent wraps around between them. -/
  rises : ∀ earlier later, earlier ≤ later → later < 2 ^ 32 →
    later ≤ lastAttempt ∨ lastAttempt < earlier →
    policy.delayAfter earlier ≤ policy.delayAfter later
  /-- No pause is longer than an earlier one if it does. -/
  falls : ∀ earlier later, earlier ≤ lastAttempt → lastAttempt < later → later < 2 ^ 32 →
    policy.delayAfter later ≤ policy.delayAfter earlier
  /-- All pauses go up only if those on the two sides of the wrap are equal. -/
  rises_iff : (∀ earlier later, 1 ≤ earlier → earlier ≤ later → later < 2 ^ 32 →
      policy.delayAfter earlier ≤ policy.delayAfter later) ↔
    policy.delayAfter lastAttempt = policy.delayAfter (lastAttempt + 1)

section Exponents

variable {attempt earlier later : Nat}

theorem exponentAfter_of_le
    (early : attempt ≤ lastAttempt) :
    exponentAfter attempt = ((attempt - 1 : Nat) : Int) := by
  have hlast : lastAttempt = 2147483648 := rfl
  have hword : Nat.pow 2 32 = 4294967296 := rfl
  unfold exponentAfter
  rw [hword, Int.bmod_eq_of_le] <;> omega

theorem exponentAfter_of_lt
    (late : lastAttempt < attempt)
    (fits : attempt < 2 ^ 32) :
    exponentAfter attempt = (attempt : Int) - 1 - 2 ^ 32 := by
  have hlast : lastAttempt = 2147483648 := rfl
  have hword : Nat.pow 2 32 = 4294967296 := rfl
  unfold exponentAfter
  rw [hword, Int.bmod_def]
  split <;> omega

theorem exponentAfter_mono
    (le : earlier ≤ later)
    (fits : later < 2 ^ 32)
    (side : later ≤ lastAttempt ∨ lastAttempt < earlier) :
    exponentAfter earlier ≤ exponentAfter later := by
  rcases side with hearly | hlate
  · rw [exponentAfter_of_le hearly, exponentAfter_of_le (Nat.le_trans le hearly)]
    omega
  · rw [exponentAfter_of_lt hlate (by omega), exponentAfter_of_lt (by omega) fits]
    omega

theorem exponentAfter_wraps
    (early : earlier ≤ lastAttempt)
    (late : lastAttempt < later)
    (fits : later < 2 ^ 32) :
    exponentAfter later ≤ exponentAfter earlier := by
  rw [exponentAfter_of_le early, exponentAfter_of_lt late fits]
  omega

end Exponents

section Pauses

variable {policy : RetryPolicy} {x y : Binary64}

/-- Pause in milliseconds that a product stands for. -/
def pause (policy : RetryPolicy) (raw : Binary64) : Nat :=
  ((raw.min (ofNat policy.maxDelay)).max 0).floorWithin (Nat.pow 2 64 - 1)

theorem delayAfter_eq
    (policy : RetryPolicy)
    (attempt : Nat) :
    policy.delayAfter attempt =
      policy.pause (ofNat policy.baseDelay * policy.multiplier.powInt (exponentAfter attempt)) :=
  rfl

theorem ordered_self
    (n : Nat) :
    Ordered (ofNat n) (ofNat n) :=
  ordered_ofNat (Nat.le_refl n)

theorem pause_mono
    (h : Ordered x y) :
    policy.pause x ≤ policy.pause y := by
  have hcapped := h.min (ordered_self policy.maxDelay)
  unfold pause
  rw [hcapped.left.max_zero, hcapped.right.max_zero]
  exact hcapped.floorWithin _

/-- A product that is no number stands for the greatest pause, as an infinite one does. -/
theorem pause_orInfinity
    (x : Binary64) :
    policy.pause x.orInfinity = policy.pause x := by
  cases x with
  | signed => rfl
  | nan =>
      have hgreatest : infinity.min (ofNat policy.maxDelay) = ofNat policy.maxDelay := by
        rw [ofNat, ofRatio, round_eq]
        exact (ordered_infinity _).min_eq
      show policy.pause infinity = _
      unfold pause
      rw [hgreatest]
      rfl

/-- Pauses are in the order of the exponents. -/
theorem delayAfter_mono
    {earlier later : Nat}
    (one_le : Ordered 1 policy.multiplier)
    (h : exponentAfter earlier ≤ exponentAfter later) :
    policy.delayAfter earlier ≤ policy.delayAfter later := by
  have hproduct := (ordered_self policy.baseDelay).mul (ordered_powInt one_le h)
  rw [delayAfter_eq, delayAfter_eq, ← pause_orInfinity, ← pause_orInfinity (_ * _)]
  exact pause_mono hproduct

end Pauses

/-- The multiplier of a policy that is not rejected is at least one. -/
theorem one_le_of_accepted
    {settings : Settings}
    (accepted : settings.fault? = none) :
    Ordered 1 settings.retry.multiplier := by
  obtain ⟨one, hone, -, hunits⟩ := exists_one
  have hpositive : one.val ≠ 0 := rank_ne_zero (hunits ▸ unitsPerOne_pos)
  have hlarge : (!settings.retry.multiplier.isFinite || settings.retry.multiplier.lt 1) = false := by
    simp only [Settings.fault?] at accepted
    split at accepted
    case isTrue => cases accepted
    case isFalse =>
        split at accepted
        case isTrue => cases accepted
        case isFalse =>
            split at accepted
            case isTrue => cases accepted
            case isFalse large => exact Bool.eq_false_iff.mpr large
  rw [hone] at hlarge ⊢
  generalize settings.retry.multiplier = multiplier at hlarge ⊢
  cases multiplier with
  | nan => cases hlarge
  | signed negative rank =>
      have hplace := of_decide_eq_false (Bool.or_eq_false_iff.mp hlarge).2
      cases negative with
      | true =>
          simp only [place] at hplace
          omega
      | false =>
          simp only [place] at hplace
          exact .ranks (by omega)

/-- The pauses of a policy that is not rejected go up, except where the exponent wraps around. -/
theorem rising_of_accepted
    (settings : Settings)
    (accepted : settings.fault? = none) :
    settings.retry.Rises := by
  have hone := one_le_of_accepted accepted
  have hlast : lastAttempt = 2147483648 := rfl
  have hrises : ∀ earlier later, earlier ≤ later → later < 2 ^ 32 →
      later ≤ lastAttempt ∨ lastAttempt < earlier →
      settings.retry.delayAfter earlier ≤ settings.retry.delayAfter later :=
    fun _ _ hle hfits hside => delayAfter_mono hone (exponentAfter_mono hle hfits hside)
  have hfalls : ∀ earlier later, earlier ≤ lastAttempt → lastAttempt < later → later < 2 ^ 32 →
      settings.retry.delayAfter later ≤ settings.retry.delayAfter earlier :=
    fun _ _ hearly hlate hfits => delayAfter_mono hone (exponentAfter_wraps hearly hlate hfits)
  refine ⟨hrises, hfalls, fun hall => ?_, fun hequal earlier later _ hle hfits => ?_⟩
  · exact Nat.le_antisymm (hall _ _ (by decide) (Nat.le_succ _) (by decide))
      (hfalls _ _ (Nat.le_refl _) (Nat.lt_succ_self _) (by decide))
  · by_cases hside : later ≤ lastAttempt ∨ lastAttempt < earlier
    · exact hrises earlier later hle hfits hside
    · calc
        settings.retry.delayAfter earlier
            ≤ settings.retry.delayAfter lastAttempt :=
          hrises _ _ (by omega) (by decide) (.inl (Nat.le_refl _))
        _ = settings.retry.delayAfter (lastAttempt + 1) := hequal
        _ ≤ settings.retry.delayAfter later :=
          hrises _ _ (by omega) hfits (.inr (Nat.lt_succ_self _))

/-- With the settings that hold unless others are chosen, the pause drops from half a minute to
nothing where the exponent wraps around. -/
theorem rising_of_default :
    ({} : Settings).fault? = none ∧ ({} : Settings).retry.Rises ∧
      ({} : Settings).retry.delayAfter lastAttempt = 30000 ∧
      ({} : Settings).retry.delayAfter (lastAttempt + 1) = 0 :=
  ⟨by decide +kernel, rising_of_accepted {} (by decide +kernel), by decide +kernel,
    by decide +kernel⟩

end RetryPolicy
end BatchRun

import Stellabill.Calendar
import Stellabill.OutboxClaims

/-!
The waits before the retries of an outbox worker and of a reconciliation: the base times a power of
two in numbers of 64 bits, so that the product wraps around before a cap is applied to it.
-/
namespace Stellabill.RetryDelays
open Calendar OutboxWorkers

/-- The wait after a failed attempt of `Reconcile`, before jitter. -/
def reconcileDelay (baseDelay maxDelay : Int) (attempt : Nat) : Int :=
  let delay := int64 (baseDelay*int64 (2^attempt))
  if delay > maxDelay then maxDelay else delay

/-- No wait before a retry is below the floor or below one before an earlier retry. -/
def Steady (retried : Nat → Prop) (floor : Int) (delay : Nat → Int) : Prop :=
  ∀ k, retried k → floor ≤ delay k ∧ ∀ j ≤ k, delay j ≤ delay k
def Fits (retried : Nat → Prop) (base : Int) : Prop := ∀ k, retried k → base*2^k < 9223372036854775808

section
variable {retried : Nat → Prop} {base m cap : Int} {raw : Nat → Int} {j k : Nat}

theorem double_fits (low : 0 ≤ m) (high : m < 9223372036854775808) (kept : 0 ≤ int64 (m*2)) : m*2 < 9223372036854775808 := by
  rw [int64,Int.bmod_def] at kept
  split at kept <;> omega
/-- A wrapped number against a cap that is not positive. -/
theorem cap_le_int64 (low : cap ≤ 0) (fits : Int64 cap) : cap ≤ int64 m ↔ (m-cap) % 18446744073709551616 < 9223372036854775808-cap := by
  have bound := fits.1
  rw [int64,Int.bmod_def]
  split <;> omega

variable (positive : 0 < base)
include positive
theorem product_mono (order : j ≤ k) : base*2^j ≤ base*2^k :=
  Int.mul_le_mul_of_nonneg_left (pow_le_pow_right₀ (by decide) order) (Int.le_of_lt positive)
theorem few_of_fits (fits : base*2^k < 9223372036854775808) : k < 63 := by
  by_contra many
  have large := product_mono positive (Nat.le_of_not_lt many)
  omega

variable (wraps : ∀ k : Nat, k < 64 → raw k = int64 (base*2^k))
include wraps
private theorem raw_of_fits (fits : base*2^k < 9223372036854775808) : raw k = base*2^k := by
  have first := product_mono positive (Nat.zero_le k)
  rw [wraps k (Nat.lt_succ_of_lt (few_of_fits positive fits)),int64_of_fits ⟨by omega,fits⟩]
/-- The first product that does not fit comes out negative. -/
theorem fits_of_nonneg (fits : Int64 base) (down : ∀ k, retried (k+1) → retried k) (nonneg : ∀ k, retried k → 0 ≤ raw k) :
    Fits retried base := by
  intro k
  induction k with
  | zero => simpa using fun _ => fits.2
  | succ k ih =>
    intro again
    have before := ih (down k again)
    have kept := nonneg _ again
    have first := product_mono positive (Nat.zero_le k)
    rw [wraps _ (Nat.succ_lt_succ (few_of_fits positive before)),pow_succ,← Int.mul_assoc] at kept
    rw [pow_succ,← Int.mul_assoc]
    exact double_fits (by omega) before kept
theorem steady_of_fits (fits : Fits retried base) : Steady retried base raw := by
  intro k again
  rw [raw_of_fits positive wraps (fits k again)]
  refine ⟨by simpa using product_mono positive (Nat.zero_le k),fun j order => ?_⟩
  have less := product_mono positive order
  rwa [raw_of_fits positive wraps (Int.lt_of_le_of_lt less (fits k again))]
end

private theorem powDuration_eq : ∀ k : Nat, k < 64 → powDuration k = int64 (2^k) := by decide

/-- The waits are steady exactly when the product fits before every retry, or exceeds a cap that is not positive. -/
theorem delays_steady_iff (cfg : Config) (event : Outbox.Event) (baseDelay maxDelay maxAttempts : Int)
    (positive : 0 < cfg.retryBackoffBase ∧ 0 < baseDelay) (fits : Int64 cfg.retryBackoffBase ∧ Int64 baseDelay ∧ Int64 maxDelay) :
    (Steady (fun k => exhausted cfg { event with retryCount := k } = false) cfg.retryBackoffBase (fun k => backoff cfg (k+1)) ↔
      Fits (fun k => exhausted cfg { event with retryCount := k } = false) cfg.retryBackoffBase) ∧
    (Steady (fun k => k+1 < maxAttempts) (min baseDelay maxDelay) (reconcileDelay baseDelay maxDelay) ↔
      Fits (fun k => k+1 < maxAttempts) baseDelay ∨ maxDelay ≤ 0 ∧
        ∀ k : Nat, k+1 < maxAttempts → (baseDelay*2^k-maxDelay) % 18446744073709551616 < 9223372036854775808-maxDelay) := by
  have wraps : ∀ k : Nat, k < 64 → backoff cfg (k+1) = int64 (cfg.retryBackoffBase*2^k) := by
    intro k few
    rw [backoff,Int.add_sub_cancel,powDuration_eq k few]
    exact Int.mul_bmod_bmod ..
  have delay : ∀ k : Nat, reconcileDelay baseDelay maxDelay k = min (int64 (baseDelay*2^k)) maxDelay := by
    intro k
    have wraps : int64 (baseDelay*int64 (2^k)) = int64 (baseDelay*2^k) := Int.mul_bmod_bmod ..
    rw [reconcileDelay,wraps]
    split <;> omega
  have wraps' : ∀ k : Nat, k < 64 → int64 (baseDelay*2^k) = int64 (baseDelay*2^k) := fun _ _ => rfl
  constructor
  · refine ⟨fun steady => fits_of_nonneg positive.1 wraps fits.1 ?_ (fun k again => ?_),steady_of_fits positive.1 wraps⟩
    · simp only [exhausted,decide_eq_false_iff_not]
      omega
    · exact Int.le_trans (Int.le_of_lt positive.1) (steady k again).1
  · simp only [Steady,delay]
    constructor
    · intro steady
      by_cases low : maxDelay ≤ 0
      · refine .inr ⟨low,fun k again => (cap_le_int64 low fits.2.2).mp ?_⟩
        have above := (steady k again).1
        omega
      · refine .inl (fits_of_nonneg positive.2 wraps' fits.2.1 (fun k => by omega) fun k again => ?_)
        have above := (steady k again).1
        omega
    · rintro (inside | ⟨low,above⟩) k again
      · obtain ⟨least,order⟩ := steady_of_fits positive.2 wraps' inside k again
        dsimp only at least order
        refine ⟨by omega,fun j earlier => ?_⟩
        have less := order j earlier
        omega
      · have kept := (cap_le_int64 low fits.2.2).mpr (above k again)
        exact ⟨by omega,fun j _ => by omega⟩

theorem delays_steady_defaults :
    Steady (fun k => exhausted OutboxClaims.defaults { OutboxClaims.created with retryCount := k } = false) second
      (fun k => backoff OutboxClaims.defaults (k+1)) ∧ Steady (fun k => (k : Int)+1 < 3) second (reconcileDelay second (30*second)) := by
  have few : ∀ {k : Nat}, k < 2 → second*2^k < 9223372036854775808 := by decide
  obtain ⟨worker,service⟩ := delays_steady_iff OutboxClaims.defaults OutboxClaims.created second (30*second) 3 (by decide) (by decide)
  refine ⟨worker.mpr fun k again => few ?_,service.mpr (.inl fun k again => few (by omega))⟩
  simp [exhausted,OutboxClaims.defaults] at again
  omega
/-- With a base of a second the 35th wait is negative. -/
theorem delay_negative : ¬ ∀ (baseDelay maxDelay maxAttempts : Int), 0 < baseDelay → Int64 baseDelay →
    Steady (fun k => k+1 < maxAttempts) (min baseDelay maxDelay) (reconcileDelay baseDelay maxDelay) := by
  intro claim
  exact absurd (claim second (30*second) 36 (by decide) (by decide) 34 (by decide)).1 (by decide)

end Stellabill.RetryDelays

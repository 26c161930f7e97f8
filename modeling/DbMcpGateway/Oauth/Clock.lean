import Mathlib.Algebra.Group.Int.Defs
import Mathlib.Algebra.Order.Group.Int
import Mathlib.Tactic.Common

/-!
# Clocks and lifetimes

`DateTime<Utc>` and `TimeDelta` of `chrono` are nanoseconds here (`ℤ`, since 2000-01-01),
and so is `std::time::Instant` (`ℕ`, of the monotonic clock). The stores make deadlines from
a configured lifetime. A `TIMESTAMPTZ` column keeps microseconds. Adding to a `DateTime`
beyond the last one that `chrono` can represent panics.

Results:

* `timestamptz_le`, `lt_of_timestamptz_lt`: what a column forgets is never in favour of
  the caller.
* `timestamptz_deadline_le`: a stored deadline is not beyond the lifetime.
* `not_chainExpired`: a chain that has not expired is younger than its lifetime.
-/

namespace DbMcpGateway.Oauth

/-- `std::time::Duration` of whole seconds. -/
abbrev Seconds := UInt64

/-- Nanoseconds of a number of seconds. -/
def nanos (s : ℕ) : ℕ := s * 1000000000

/-- `TimeDelta::MAX`: `i64::MAX` milliseconds. -/
def maxDelta : ℤ := 9223372036854775807 * 1000000

/-- `ChronoDuration::from_std`: `None` beyond `TimeDelta::MAX`. -/
def fromStd (d : Seconds) : Option ℤ :=
  if d.toNat ≤ 9223372036854775 then some (nanos d.toNat) else none

/-- The last `DateTime<Utc>`, at the end of the year 262142. -/
def maxTime : ℤ := 95015280 * 86400 * 1000000000 - 1

/-- `t + d`; `none` is the panic on overflow. -/
def checkedAdd (t : ℤ) (d : ℤ) : Option ℤ := if t + d ≤ maxTime then some (t + d) else none

/-- The end of a lifetime that starts at `t`; `fallback` is used for a lifetime that
    `chrono` cannot represent. -/
def deadline (t : ℤ) (ttl : Seconds) (fallback : ℤ) : Option ℤ :=
  checkedAdd t ((fromStd ttl).getD fallback)

/-- `chain_expired` (transport/oauth_state.rs:373). -/
def chainExpired (issuedAt now : ℤ) (ttl : Seconds) : Bool :=
  (fromStd ttl).getD maxDelta ≤ now - issuedAt

/-- A time as a `TIMESTAMPTZ` column keeps it. -/
def timestamptz (t : ℤ) : ℤ := t - t % 1000

theorem timestamptz_le (t : ℤ) : timestamptz t ≤ t := by
  unfold timestamptz
  omega

@[simp] theorem timestamptz_timestamptz (t : ℤ) : timestamptz (timestamptz t) = timestamptz t := by
  unfold timestamptz
  omega

variable {t u : ℤ} {ttl : Seconds}

theorem timestamptz_mono {t' : ℤ} (h : t ≤ t') : timestamptz t ≤ timestamptz t' := by
  unfold timestamptz
  omega

theorem lt_of_timestamptz_lt {t' : ℤ} (h : timestamptz t < timestamptz t') : t < t' := by
  by_contra hle
  have hmono := timestamptz_mono (not_lt.mp hle)
  omega

theorem checkedAdd_eq_some {d : ℤ} (h : checkedAdd t d = some u) : u = t + d := by
  unfold checkedAdd at h
  split_ifs at h
  exact (Option.some.inj h).symm

theorem deadline_eq_some {fallback : ℤ} (h : deadline t ttl fallback = some u) :
    u = t + (fromStd ttl).getD fallback :=
  checkedAdd_eq_some h

/-- A lifetime that `chrono` can represent. -/
theorem fromStd_eq_some {d : ℤ} (h : fromStd ttl = some d) :
    d = nanos ttl.toNat := by
  unfold fromStd at h
  split_ifs at h
  exact (Option.some.inj h).symm

/-- A lifetime that `chrono` cannot represent is longer than any it can. -/
theorem maxDelta_lt_of_fromStd_none (h : fromStd ttl = none) :
    maxDelta < nanos ttl.toNat := by
  unfold fromStd at h
  split_ifs at h with hle
  unfold maxDelta nanos
  omega

/-- The end of a lifetime, as a column keeps it, is not beyond the lifetime. -/
theorem timestamptz_deadline_le (h : deadline t ttl (nanos (24 * 3600)) = some u) :
    timestamptz u ≤ timestamptz t + nanos ttl.toNat := by
  have hu := deadline_eq_some h
  cases hstd : fromStd ttl with
  | some d =>
    rw [hstd, Option.getD_some, fromStd_eq_some hstd] at hu
    unfold timestamptz nanos at *
    omega
  | none =>
    have hlong := maxDelta_lt_of_fromStd_none hstd
    rw [hstd, Option.getD_none] at hu
    unfold maxDelta at hlong
    unfold timestamptz nanos at *
    omega

theorem not_chainExpired {issuedAt now : ℤ} (h : chainExpired issuedAt now ttl = false) :
    now < issuedAt + nanos ttl.toNat := by
  rw [chainExpired, decide_eq_false_iff_not, not_le] at h
  cases hstd : fromStd ttl with
  | some d =>
    rw [hstd, Option.getD_some] at h
    rw [← fromStd_eq_some hstd]
    omega
  | none =>
    rw [hstd, Option.getD_none] at h
    have hlong := maxDelta_lt_of_fromStd_none hstd
    omega

end DbMcpGateway.Oauth

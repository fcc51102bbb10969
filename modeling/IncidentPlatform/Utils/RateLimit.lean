import IncidentPlatform.Order.FixedWindow
import IncidentPlatform.Schemas.JobEvents
import Mathlib.Logic.Function.Basic

namespace IncidentPlatform.Utils

open Models IncidentPlatform.Order Schemas

/-! # The fixed-window rate limiter

`_check` of `utils/rate_limit.py` and `_check_tenant_rate` of `utils/quota.py`,
with Redis answering.  A request reads the clock and increments at one instant.
-/

/-- A counter key with the instant its TTL ends at. -/
structure Counter where
  count : Nat
  expiresAt : Option ℚ≥0 := none

/-- A key is gone after the last instant of its TTL. -/
def Counter.live (now : ℚ≥0) (counter : Counter) : Bool := counter.expiresAt.all (now ≤ ·)

abbrev Counters := String → Option Counter

namespace Counters

variable (counters : Counters) (now : ℚ≥0) (key : String)

/-- `INCR`, which keeps the TTL of a key that is there. -/
def incr : Nat × Counters :=
  match (counters key).filter (Counter.live now) with
  | none => (1, Function.update counters key (some { count := 1 }))
  | some counter =>
      (counter.count + 1, Function.update counters key (some { counter with count := counter.count + 1 }))

def expire (span : Nat) : Counters :=
  Function.update counters key ((counters key).map fun counter => { counter with expiresAt := some (now + span) })

/-- The count after one more request, whose key gets its TTL from the first. -/
def count (span : Nat) : Nat × Counters :=
  let (count, counted) := counters.incr now key
  if count = 1 then (count, counted.expire now key span) else (count, counted)

end Counters

structure RateLimitError where
  message : String
  limit : Nat
  windowSeconds : Nat
  scope : Option String := none

def windowKey (key : String) (windowStart : Nat) : String := "rate:" ++ key ++ ":" ++ toString windowStart

/-- `_check`. -/
def check (counters : Counters) (now : ℚ≥0) (key : String) (limit window : Nat) :
    Except RateLimitError Unit × Counters :=
  let windowStart := aligned window now
  let (count, after) := counters.count now (windowKey key windowStart) (window * 2)
  if limit < count then
    (.error {
      message := "Rate limit exceeded: " ++ toString limit ++ " requests per " ++ toString window ++ "s."
      limit
      windowSeconds := window }, after)
  else (.ok (), after)

structure Tenant where
  id : Uuid
  rateLimitPerMinute : Int

/-- `_check_tenant_rate`: no limit where the cap is not positive. -/
def checkTenantRate (counters : Counters) (now : ℚ≥0) (tenant : Tenant) :
    Except RateLimitError Unit × Counters :=
  if tenant.rateLimitPerMinute ≤ 0 then (.ok (), counters)
  else
    let windowStart := aligned 60 now
    let (count, after) := counters.count now (windowKey ("tenant:" ++ uuidText tenant.id) windowStart) 120
    if tenant.rateLimitPerMinute < count then
      (.error {
        message := "Tenant rate limit exceeded: " ++ toString tenant.rateLimitPerMinute ++ " requests/min."
        limit := tenant.rateLimitPerMinute.toNat
        windowSeconds := 60
        scope := some "tenant" }, after)
    else (.ok (), after)

/-- Requests made one after the other, each with whether it passed. -/
def requests (served : Counters → ℚ≥0 → Except RateLimitError Unit × Counters) :
    Counters → List ℚ≥0 → List (ℚ≥0 × Bool)
  | _, [] => []
  | counters, now :: rest =>
      let (answer, after) := served counters now
      (now, answer.isOk) :: requests served after rest

end IncidentPlatform.Utils

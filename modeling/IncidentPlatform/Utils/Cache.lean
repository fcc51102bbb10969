import IncidentPlatform.Models.Job

namespace IncidentPlatform.Utils

open Models

/-! # The job cache

`JobCache` on the Redis key of one job of one tenant.
-/

/-- `_JOB_TTL`. -/
def jobTtl : Time := seconds 10

/-- `_NO_CACHE_TTL`. -/
def noCacheTtl : Time := seconds 30

/-- What the key can hold: a cached response or the tombstone `_INVALIDATED`. -/
inductive CacheValue (Row : Type) where
  | response (row : Row)
  | invalidated

/-- The key's value with the time it expires at. -/
structure JobCache (Row : Type) where
  stored : Option (CacheValue Row × Time) := none

namespace JobCache

variable {Row : Type} (cache : JobCache Row) (now : Time)

/-- The value that Redis still has at `now`. -/
def live : Option (CacheValue Row) :=
  cache.stored.bind fun entry => if now < entry.2 then some entry.1 else none

/-- A tombstone reads as a miss. -/
def get : Option Row :=
  match cache.live now with
  | some (.response row) => some row
  | _ => none

/-- SET with `ex` and `nx`: a key that is there is left as it is. -/
def set (row : Row) (ttl : Time := jobTtl) : JobCache Row :=
  match cache.live now with
  | some _ => cache
  | none => { stored := some (.response row, now + ttl) }

def delete : JobCache Row := { stored := none }

def invalidate (ttl : Time := noCacheTtl) : JobCache Row :=
  { stored := some (.invalidated, now + ttl) }

end JobCache

end IncidentPlatform.Utils

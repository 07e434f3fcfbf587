import Mathlib.Algebra.Order.Ring.Unbundled.Rat
import PostCall.Model.Config

/-!
# The signal for the dialler

`src/services/circuit_breaker.py`, over two counters in Redis. A key holds a number, and may have a time
at which it expires; `INCRBY` and `DECR` create a missing key from zero without such a time and keep
that of a key that is there, and `EXPIRE` restarts it. Each call is at one time. The ratios are exact.
-/

namespace PostCall.Model

/-- A key that holds a number. -/
structure RedisKey where
  value : ℤ
  expiresAt : Option Time

namespace RedisKey

/-- The key, unless it is missing or has expired. -/
def alive (now : Time) (key : Option RedisKey) : Option RedisKey :=
  key.filter fun k => k.expiresAt.all (now < ·)

/-- `int(await redis_client.get(key) or 0)`. -/
def read (now : Time) (key : Option RedisKey) : ℤ := ((alive now key).map value).getD 0

/-- `INCRBY`: `INCR` is by one, and `DECR` by minus one. -/
def incrBy (now : Time) (n : ℤ) (key : Option RedisKey) : Option RedisKey :=
  match alive now key with
  | some k => some { k with value := k.value + n }
  | none => some ⟨n, none⟩

/-- `EXPIRE`: it does nothing to a missing key. -/
def expire (now : Time) (ttl : ℤ) (key : Option RedisKey) : Option RedisKey :=
  (alive now key).map fun k => { k with expiresAt := some (now + seconds ttl) }

end RedisKey

/-- The keys `llm:postcall:rpm` and `llm:postcall:tpm`. -/
structure PostcallCounters where
  rpm : Option RedisKey
  tpm : Option RedisKey

/-- Neither key is there. -/
def PostcallCounters.unset : PostcallCounters := ⟨none, none⟩

structure CapacitySignal where
  allowed : Bool
  usageRatio : ℚ
  suggestedDelaySeconds : ℕ
  reason : String

namespace PostCallCircuitBreaker

/-- `record_postcall_start`. -/
def recordPostcallStart (now : Time) (estimatedTokens : ℕ) (s : PostcallCounters) :
    PostcallCounters :=
  let rpm := RedisKey.incrBy now 1 s.rpm
  let tpm := if estimatedTokens ≠ 0 then RedisKey.incrBy now estimatedTokens s.tpm else s.tpm
  ⟨RedisKey.expire now 60 rpm, RedisKey.expire now 60 tpm⟩

/-- `record_postcall_end`. -/
def recordPostcallEnd (now : Time) (s : PostcallCounters) : PostcallCounters :=
  { s with rpm := RedisKey.incrBy now (-1) s.rpm }

/-- `current / limit if limit else 1`. -/
def ratio (current : ℤ) (limit : ℕ) : ℚ := if limit ≠ 0 then current / limit else 1

/-- The ratio of the tokens to their limit. -/
def tpmRatio (cfg : Settings) (now : Time) (s : PostcallCounters) : ℚ :=
  ratio (RedisKey.read now s.tpm) cfg.llmTokensPerMinute

def capacitySignal (cfg : Settings) (now : Time) (s : PostcallCounters) : CapacitySignal :=
  let rpmRatio := ratio (RedisKey.read now s.rpm) cfg.llmRequestsPerMinute
  let usageRatio := max rpmRatio (tpmRatio cfg now s)
  if usageRatio ≥ 1 then ⟨false, usageRatio, 15, "rate_limit_exhausted"⟩
  else if usageRatio ≥ 9 / 10 then ⟨true, usageRatio, 5, "slow_down"⟩
  else if usageRatio ≥ 3 / 4 then ⟨true, usageRatio, 1, "warm"⟩
  else ⟨true, usageRatio, 0, "healthy"⟩

end PostCallCircuitBreaker

end PostCall.Model

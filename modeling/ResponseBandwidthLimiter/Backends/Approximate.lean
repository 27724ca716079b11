import ResponseBandwidthLimiter.Backends.Base
import Mathlib.Algebra.Order.Floor.Ring
import Mathlib.Data.Rat.Floor

namespace response_bandwidth_limiter.base

def build_approx_counter_key (request_key handler_name : String) (rule_index : Nat) (bucket : ℤ) : String :=
  APPROX_COUNTER_PREFIX ++ ":" ++ handler_name ++ ":" ++ toString rule_index ++ ":" ++ request_key ++ ":" ++
    toString bucket

/-- `int(now // window_seconds)` for a positive window. -/
def bucket_of (time : ℚ) (window_seconds : ℤ) : ℤ := ⌊time / window_seconds⌋

/-- The `record_hit` a storage has by default: one counter for each aligned
    window, counted with the storage's own `incr`. -/
def approx_record_hit {S : Type} (incr : S → String → Option ℤ → Except PyError ℤ × S) (self : S) (time : ℚ)
    (request_key handler_name : String) (rule_index : Nat) (window_seconds : ℤ) :
    Except PyError SlidingWindowResult × S :=
  let bucket := bucket_of time window_seconds
  let bucket_start : ℚ := bucket * window_seconds
  let counter_key := build_approx_counter_key request_key handler_name rule_index bucket
  match incr self counter_key (some (max 1 (window_seconds * 2))) with
  | (.error e, self) => (.error e, self)
  | (.ok hit_count, self) =>
    (.ok {
      hit_count := hit_count.toNat
      oldest_timestamp := some bucket_start
      current_timestamp := time
      retry_after_timestamp := none }, self)

end response_bandwidth_limiter.base

import ResponseBandwidthLimiter.Models
import ResponseBandwidthLimiter.Collections.OrderedDict

open collections
open response_bandwidth_limiter.models

namespace response_bandwidth_limiter.base

/-- What a call answers. -/
inductive Reply (V : Type) where
  | done
  | value (found : V)
  | count (current : ℤ)
  | hit (result : SlidingWindowResult)
  | answer (holds : Bool)

/-- The public operations of the storage. -/
inductive Operation (V : Type) where
  | get (key : String)
  | set (key : String) (value : V) (expire : Option ℤ)
  | incr (key : String) (expire : Option ℤ)
  | delete (key : String)
  | record_hit (request_key handler_name : String) (rule_index : Nat) (window_seconds : ℤ)
      (max_hits : Option ℤ)
  | cleanup_handler_counters (handler_name : String)
  | cleanup_orphaned_counters (active_rules : OrderedDict String (List Rule))

/-- The key of a value operation. -/
def Operation.key {V : Type} : Operation V → Option String
  | .get key => some key
  | .set key _ _ => some key
  | .incr key _ => some key
  | .delete key => some key
  | _ => none

end response_bandwidth_limiter.base

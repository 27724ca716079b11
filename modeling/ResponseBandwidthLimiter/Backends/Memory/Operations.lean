import ResponseBandwidthLimiter.Backends.Memory.Entries
import ResponseBandwidthLimiter.Backends.Operations

open collections
open response_bandwidth_limiter.base response_bandwidth_limiter.models

namespace response_bandwidth_limiter.memory

namespace InMemoryStorage

variable {V : Type} [PyValue V]

/-- One operation at a clock reading. -/
def operate (self : InMemoryStorage V) (now : ℚ) :
    Operation V → Except PyError (Reply V) × InMemoryStorage V
  | .get key => (.ok (.value (self.get now key).1), (self.get now key).2)
  | .set key value expire =>
    ((self.set now key value expire).1.map (fun _ => .done), (self.set now key value expire).2)
  | .incr key expire => ((self.incr now key expire).1.map .count, (self.incr now key expire).2)
  | .delete key => (.ok .done, self.delete key)
  | .record_hit request_key handler_name rule_index window_seconds max_hits =>
    let (result, self) := self.record_hit now request_key handler_name rule_index window_seconds max_hits
    (result.map .hit, self)
  | .cleanup_handler_counters handler_name => (.ok .done, self.cleanup_handler_counters handler_name)
  | .cleanup_orphaned_counters active_rules => (.ok .done, self.cleanup_orphaned_counters now active_rules)

/-- No operation on other keys changes what is visible at a control key. -/
theorem visible_operate (self : InMemoryStorage V) (now : ℚ) {operation : Operation V} {key : String}
    (hcontrol : is_control_key key) (hforeign : ∀ named ∈ operation.key, key ≠ named) :
    (self.operate now operation).2.visible now key = self.visible now key := by
  cases operation with
  | get read => exact visible_get self now read key
  | set put value expire =>
    refine (visible_set self now put value expire hcontrol).trans (if_neg ?_)
    exact fun hput => hforeign put rfl hput.1
  | incr counted expire => exact visible_incr_of_ne self now expire hcontrol (hforeign counted rfl)
  | delete deleted => exact (visible_delete self deleted now key).trans (if_neg (hforeign deleted rfl))
  | record_hit request_key handler_name rule_index window_seconds max_hits =>
    exact visible_record_hit self now request_key handler_name rule_index window_seconds max_hits key
  | cleanup_handler_counters handler_name => exact visible_cleanup_handler_counters self handler_name now hcontrol
  | cleanup_orphaned_counters active_rules => rfl

end InMemoryStorage

end response_bandwidth_limiter.memory

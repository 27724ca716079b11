import ResponseBandwidthLimiter.Backends.Approximate
import ResponseBandwidthLimiter.Backends.Operations

open collections
open response_bandwidth_limiter.base response_bandwidth_limiter.models

namespace response_bandwidth_limiter.manager

/-- Objects that can be clock readings, too. `as_float` is the built-in
    conversion `float(value)`. -/
class PyFloat (V : Type) extends PyValue V where
  float : ℚ → V
  as_float : V → Except PyError ℚ
  is_none_float : ∀ time, is_none (float time) = false
  as_float_float : ∀ time, as_float (float time) = .ok time

/-- The objects the library itself stores here. Of texts, those of whole numbers
    convert. -/
inductive ClockedValue where
  | plain (value : PlainValue)
  | float (time : ℚ)
  deriving DecidableEq

instance : PyFloat ClockedValue where
  none := .plain .none
  str text := .plain (.str text)
  int value := .plain (.int value)
  as_int
    | .plain value => PyValue.as_int value
    | .float time => .ok (if 0 ≤ time then ⌊time⌋ else ⌈time⌉)
  is_none value := value = .plain .none
  is_none_none := rfl
  is_none_str _ := rfl
  is_none_int _ := rfl
  as_int_int _ := rfl
  float := .float
  as_float
    | .plain value => (PyValue.as_int value).map (fun number : ℤ => (number : ℚ))
    | .float time => .ok time
  is_none_float _ := rfl
  as_float_float _ := rfl

def EXPIRY_PREFIX : String := "__rbl_exp__:"

def cleanup_interval : ℚ := 1

/-- A dictionary of values and, under keys of their own, their expiries. The next
    clean-up is none for minus infinity. -/
structure ManagerStorage (V : Type) where
  shared_dict : OrderedDict String V
  next_cleanup : Option ℚ

namespace ManagerStorage

variable {V : Type}

def init : ManagerStorage V := ⟨.empty, none⟩

def expiry_key (key : String) : String := EXPIRY_PREFIX ++ key

/-- `candidate[len(_EXPIRY_PREFIX):]`. -/
def without_expiry_prefix (candidate : String) : String :=
  String.ofList (candidate.toList.drop EXPIRY_PREFIX.toList.length)

def delete_key (self : ManagerStorage V) (key : String) : ManagerStorage V :=
  { self with shared_dict := (self.shared_dict.erase key).erase (expiry_key key) }

def put_value (self : ManagerStorage V) (key : String) (value : V) : ManagerStorage V :=
  { self with shared_dict := self.shared_dict.set key value }

def cleanup_handler_counters (self : ManagerStorage V) (handler_name : String) : ManagerStorage V :=
  let stale_keys := self.shared_dict.keys.filter
    (fun key => starts_with key <| build_approx_handler_prefix handler_name)
  stale_keys.foldl delete_key self

def cleanup_orphaned_counters (self : ManagerStorage V) (active_rules : OrderedDict String (List Rule)) :
    ManagerStorage V :=
  let valid_prefixes := active_rules.keys.map build_approx_handler_prefix
  let stale_keys := self.shared_dict.keys.filter (fun key =>
    starts_with key (APPROX_COUNTER_PREFIX ++ ":") && !valid_prefixes.any (fun valid => starts_with key valid))
  stale_keys.foldl delete_key self

variable [PyFloat V]

def set_expiry (self : ManagerStorage V) (key : String) (now : ℚ) (expire : Option ℤ) : ManagerStorage V :=
  match expire with
  | none => { self with shared_dict := self.shared_dict.erase (expiry_key key) }
  | some seconds =>
    { self with shared_dict := self.shared_dict.set (expiry_key key) (PyFloat.float (now + seconds)) }

def delete_if_expired (self : ManagerStorage V) (key : String) (now : ℚ) : Except PyError Bool × ManagerStorage V :=
  match self.shared_dict.get? (expiry_key key) with
  | none => (.ok false, self)
  | some expires_at =>
    if PyValue.is_none expires_at then (.ok false, self)
    else
      match PyFloat.as_float expires_at with
      | .error e => (.error e, self)
      | .ok time => if time > now then (.ok false, self) else (.ok true, self.delete_key key)

/-- The loop of `_cleanup_expired` over the rest of its snapshot. -/
def sweep (self : ManagerStorage V) (now : ℚ) : List (String × V) → Except PyError Unit × ManagerStorage V
  | [] => (.ok (), self)
  | (candidate, expires_at) :: rest =>
    if starts_with candidate EXPIRY_PREFIX then
      match PyFloat.as_float expires_at with
      | .error e => (.error e, self)
      | .ok time =>
        if time ≤ now then
          let expired := without_expiry_prefix candidate
          (self.delete_key expired).sweep now rest
        else self.sweep now rest
    else self.sweep now rest

def cleanup_expired (self : ManagerStorage V) (now : ℚ) : Except PyError Unit × ManagerStorage V :=
  if self.next_cleanup.any (fun next => now < next) then (.ok (), self)
  else
    match self.sweep now self.shared_dict.items with
    | (.error e, self) => (.error e, self)
    | (.ok (), self) => (.ok (), { self with next_cleanup := some (now + cleanup_interval) })

def get (self : ManagerStorage V) (now : ℚ) (key : String) : Except PyError V × ManagerStorage V :=
  match self.delete_if_expired key now with
  | (.error e, self) => (.error e, self)
  | (.ok true, self) => (.ok PyValue.none, self)
  | (.ok false, self) => (.ok ((self.shared_dict.get? key).getD PyValue.none), self)

def set (self : ManagerStorage V) (now : ℚ) (key : String) (value : V) (expire : Option ℤ) :
    Except PyError Unit × ManagerStorage V :=
  match validate_expire expire with
  | .error e => (.error e, self)
  | .ok () =>
    match self.cleanup_expired now with
    | (.error e, self) => (.error e, self)
    | (.ok (), self) => (.ok (), (self.put_value key value).set_expiry key now expire)

def incr (self : ManagerStorage V) (now : ℚ) (key : String) (expire : Option ℤ) :
    Except PyError ℤ × ManagerStorage V :=
  match validate_expire expire with
  | .error e => (.error e, self)
  | .ok () =>
    match self.cleanup_expired now with
    | (.error e, self) => (.error e, self)
    | (.ok (), self) =>
      match self.delete_if_expired key now with
      | (.error e, self) => (.error e, self)
      | (.ok _, self) =>
        match (self.shared_dict.get? key).elim (.ok 0) PyValue.as_int with
        | .error e => (.error e, self)
        | .ok previous =>
          let current := previous + 1
          let self := self.put_value key (PyValue.int current)
          (.ok current, if expire.isSome then self.set_expiry key now expire else self)

def delete (self : ManagerStorage V) (key : String) : ManagerStorage V := self.delete_key key

/-- The default `record_hit`, which ignores the cap. It reads `time.time`, and
    its `incr` the clock of the storage. -/
def record_hit (self : ManagerStorage V) (time now : ℚ) (request_key handler_name : String) (rule_index : Nat)
    (window_seconds : ℤ) (_max_hits : Option ℤ) : Except PyError SlidingWindowResult × ManagerStorage V :=
  approx_record_hit (fun self key expire => self.incr now key expire) self time request_key handler_name rule_index
    window_seconds

/-- One operation at a reading of `time.time` and one of the storage's clock. -/
def operate (self : ManagerStorage V) (time now : ℚ) :
    Operation V → Except PyError (Reply V) × ManagerStorage V
  | .get key => ((self.get now key).1.map .value, (self.get now key).2)
  | .set key value expire =>
    ((self.set now key value expire).1.map (fun _ => .done), (self.set now key value expire).2)
  | .incr key expire => ((self.incr now key expire).1.map .count, (self.incr now key expire).2)
  | .delete key => (.ok .done, self.delete key)
  | .record_hit request_key handler_name rule_index window_seconds max_hits =>
    let (result, self) := self.record_hit time now request_key handler_name rule_index window_seconds max_hits
    (result.map .hit, self)
  | .cleanup_handler_counters handler_name => (.ok .done, self.cleanup_handler_counters handler_name)
  | .cleanup_orphaned_counters active_rules => (.ok .done, self.cleanup_orphaned_counters active_rules)

end ManagerStorage

end response_bandwidth_limiter.manager

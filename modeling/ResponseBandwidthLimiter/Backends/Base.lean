import ResponseBandwidthLimiter.Collections.Text
import Mathlib.Algebra.Order.Ring.Rat

open collections

namespace response_bandwidth_limiter.base

/-- The exceptions the storage layer raises. -/
inductive PyError where
  | value_error (message : String)
  | type_error (message : String)
  | storage_unavailable_error (message : String)
  | runtime_error (message : String)
  deriving DecidableEq, Repr

/-- The objects a storage carries. The library itself stores text and integers;
    `as_int` is the built-in conversion `int(value)`, which raises on objects
    that are no number. -/
class PyValue (V : Type) where
  none : V
  str : String → V
  int : ℤ → V
  as_int : V → Except PyError ℤ
  is_none : V → Bool
  is_none_none : is_none none = true
  is_none_str : ∀ text, is_none (str text) = false
  is_none_int : ∀ value, is_none (int value) = false
  as_int_int : ∀ value, as_int (int value) = .ok value

/-- The objects the library itself stores. -/
inductive PlainValue where
  | none
  | str (text : String)
  | int (value : ℤ)
  deriving DecidableEq, Repr

instance : PyValue PlainValue where
  none := .none
  str := .str
  int := .int
  as_int
    | .none => .error (.type_error "int() argument must be a string or a real number, not 'NoneType'")
    | .str text =>
      match (strip text).toInt? with
      | some value => .ok value
      | none => .error (.value_error ("invalid literal for int() with base 10: '" ++ text ++ "'"))
    | .int value => .ok value
  is_none value := value = .none
  is_none_none := rfl
  is_none_str _ := rfl
  is_none_int _ := rfl
  as_int_int _ := rfl

/-- The methods of a storage that carry values. Each may raise, and leaves a
    state behind either way. -/
structure Storage (S V : Type) where
  get : S → String → Except PyError V × S
  set : S → String → V → Option ℤ → Except PyError Unit × S
  delete : S → String → Except PyError Unit × S

/-- The result of counting one hit. `retry_after_timestamp` is the time of the
    hit whose expiry makes room for the next request. -/
structure SlidingWindowResult where
  hit_count : Nat
  oldest_timestamp : Option ℚ
  current_timestamp : ℚ
  retry_after_timestamp : Option ℚ
  deriving DecidableEq, Repr

def validate_limit (name : String) (value : ℤ) : Except PyError Unit :=
  if value ≤ 0 then .error (.value_error s!"{name} must be greater than 0.") else .ok ()

def validate_expire (expire : Option ℤ) : Except PyError Unit :=
  match expire with
  | none => .ok ()
  | some seconds => validate_limit "expire" seconds

theorem validate_limit_ok_iff {name : String} {value : ℤ} :
    validate_limit name value = .ok () ↔ 0 < value := by
  unfold validate_limit
  split <;> simp <;> omega

theorem validate_expire_ok_iff {expire : Option ℤ} :
    validate_expire expire = .ok () ↔ ∀ seconds ∈ expire, 0 < seconds := by
  cases expire with
  | none => simp [validate_expire]
  | some seconds => simp [validate_expire, validate_limit_ok_iff]

def APPROX_COUNTER_PREFIX : String := "__rbl_counter__"

/-- The beginning shared by the approximate counters of one handler. -/
def build_approx_handler_prefix (handler_name : String) : String :=
  APPROX_COUNTER_PREFIX ++ ":" ++ handler_name ++ ":"

end response_bandwidth_limiter.base

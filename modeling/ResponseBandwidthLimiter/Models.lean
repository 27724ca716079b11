import ResponseBandwidthLimiter.Backends.Base

open response_bandwidth_limiter.base
open collections

namespace response_bandwidth_limiter.models

/-- The period of a rule: the name of a unit, or a `timedelta` given by its
    total number of microseconds. -/
inductive Period where
  | str (name : String)
  | timedelta (microseconds : ℤ)
  deriving DecidableEq, Repr

/-- `VALID_PERIODS.get(name)`. -/
def valid_periods (name : String) : Option ℤ :=
  if name = "second" then some 1
  else if name = "minute" then some 60
  else if name = "hour" then some 3600
  else none

def resolve_window_seconds (period : Period) : Except PyError ℤ :=
  match period with
  | .str name =>
    match valid_periods name with
    | none => .error (.value_error "per must be one of second, minute, hour, or a positive timedelta.")
    | some seconds => .ok seconds
  | .timedelta microseconds =>
    if microseconds ≤ 0 then
      .error (.value_error "timedelta values for per must be greater than 0.")
    else if microseconds % 1000000 ≠ 0 then
      .error (.value_error "timedelta values for per must use whole seconds.")
    else .ok (microseconds / 1000000)

/-- A window that resolves is a positive whole number of seconds. -/
theorem resolve_window_seconds_pos {period : Period} {seconds : ℤ}
    (h : resolve_window_seconds period = .ok seconds) : 0 < seconds := by
  cases period with
  | str name =>
    simp only [resolve_window_seconds, valid_periods] at h
    split at h
    · cases h
    · rename_i found hfound
      cases h
      split_ifs at hfound <;> cases hfound <;> decide
  | timedelta microseconds =>
    simp only [resolve_window_seconds] at h
    split_ifs at h with hpos hwhole
    simp only [Except.ok.injEq] at h
    omega

structure PolicyDecision where
  reject : Bool := false
  reject_status : ℤ := 429
  reject_detail : String := "Rate limit exceeded"
  retry_after : ℤ := 0
  pre_delay : ℚ := 0
  throttle_rate : Option ℤ := none
  deriving DecidableEq, Repr

/-- What `ActionProtocol` promises of an action: the two sort components and
    the decision it takes for a retry time. -/
structure Action where
  priority : ℤ
  sort_key : ℚ
  decide : ℤ → PolicyDecision

structure Throttle where
  bytes_per_sec : ℤ
  bytes_per_sec_pos : 0 < bytes_per_sec

def Throttle.init (bytes_per_sec : ℤ) : Except PyError Throttle :=
  if h : bytes_per_sec ≤ 0 then .error (.value_error "bytes_per_sec must be greater than 0.")
  else .ok ⟨bytes_per_sec, by omega⟩

def Throttle.action (self : Throttle) : Action where
  priority := 2
  sort_key := self.bytes_per_sec
  decide retry_after := { retry_after, throttle_rate := some self.bytes_per_sec }

structure Reject where
  status_code : ℤ
  detail : String
  status_code_ge : 400 ≤ status_code
  status_code_le : status_code ≤ 599

def Reject.init (status_code : ℤ) (detail : String) : Except PyError Reject :=
  if hlow : status_code < 400 then .error (.value_error "status_code must be at least 400.")
  else if hhigh : status_code > 599 then .error (.value_error "status_code must be at most 599.")
  else .ok ⟨status_code, detail, by omega, by omega⟩

def Reject.action (self : Reject) : Action where
  priority := 0
  sort_key := 0
  decide retry_after :=
    { reject := true, reject_status := self.status_code, reject_detail := self.detail, retry_after }

/-- The defaults of `Reject` pass its own checks. -/
def Reject.default : Reject := ⟨429, "Rate limit exceeded", by decide, by decide⟩

structure Delay where
  seconds : ℚ
  seconds_pos : 0 < seconds

def Delay.init (seconds : ℚ) : Except PyError Delay :=
  if h : seconds ≤ 0 then .error (.value_error "seconds must be greater than 0.")
  else .ok ⟨seconds, lt_of_not_ge h⟩

def Delay.action (self : Delay) : Action where
  priority := 1
  sort_key := -self.seconds
  decide retry_after := { retry_after, pre_delay := self.seconds }

/-- A rule that passed `__post_init__`: the count is positive, the period
    resolves to a window, and the scope is stripped and not empty. -/
structure Rule where
  count : ℤ
  per : Period
  action : Action
  scope : String
  window_seconds : ℤ
  count_pos : 0 < count
  window_seconds_eq : resolve_window_seconds per = .ok window_seconds
  scope_stripped : ∃ given, strip given = scope
  scope_ne_empty : scope ≠ ""

theorem Rule.window_seconds_pos (self : Rule) : 0 < self.window_seconds :=
  resolve_window_seconds_pos self.window_seconds_eq

def Rule.init (count : ℤ) (per : Period) (action : Action) (scope : String) : Except PyError Rule :=
  if hcount : count ≤ 0 then .error (.value_error "count must be greater than 0.")
  else
    match hwindow : resolve_window_seconds per with
    | .error e => .error e
    | .ok window_seconds =>
      if hscope : strip scope = "" then .error (.value_error "scope must be a non-empty string.")
      else .ok {
        count, per, action, window_seconds
        scope := strip scope
        count_pos := by omega
        window_seconds_eq := hwindow
        scope_stripped := ⟨scope, rfl⟩
        scope_ne_empty := hscope }

/-- `Rule(1, "minute", Reject())`. -/
def Rule.one_per_minute : Rule where
  count := 1
  per := .str "minute"
  action := Reject.default.action
  scope := "ip"
  window_seconds := 60
  count_pos := by decide
  window_seconds_eq := rfl
  scope_stripped := ⟨"ip", by decide⟩
  scope_ne_empty := by decide

end response_bandwidth_limiter.models

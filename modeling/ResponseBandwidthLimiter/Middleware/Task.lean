import ResponseBandwidthLimiter.Collections.Transitions
import ResponseBandwidthLimiter.Limiter
import ResponseBandwidthLimiter.Policy
import ResponseBandwidthLimiter.Shutdown

open collections
open response_bandwidth_limiter.base response_bandwidth_limiter.models response_bandwidth_limiter.policy
open response_bandwidth_limiter.limiter response_bandwidth_limiter.shutdown

namespace response_bandwidth_limiter.middleware

/-- What an awaited call or a resolver may raise. -/
inductive Failure where
  | storage_unavailable_error
  | streaming_aborted_error
  | value_error
  | cancelled_error
  | exception
  deriving DecidableEq, Repr

structure Response where
  status_code : ℤ
  error : String
  detail : String
  retry_after : Option ℤ := none
  deriving DecidableEq, Repr

def build_reject_response (decision : PolicyDecision) : Response where
  status_code := decision.reject_status
  error := "Rate Limit Exceeded"
  detail := decision.reject_detail
  retry_after := some decision.retry_after

def build_shutdown_response : Response where
  status_code := 503
  error := "Server shutting down"
  detail := "The server is shutting down and cannot accept new requests for routes managed by the limiter."

def build_backend_unavailable_response : Response where
  status_code := 503
  error := "Rate limit backend unavailable"
  detail := "The request policy backend is unavailable and the limiter is configured to fail closed."

def build_blocked_ip_response : Response where
  status_code := 403
  error := "IP blocked"
  detail := "The client IP is blocked."

/-- The dictionary bound to `scope["extensions"]`: which object it is, and the
    names in it. -/
structure Extensions where
  object : Nat
  names : List String
  deriving DecidableEq, Repr

/-- A new dictionary without the extensions that would bypass `send`. -/
def Extensions.paced (self : Extensions) : Extensions where
  object := self.object + 1
  names := self.names.filter
    (fun name => name ∉ ["http.response.pathsend", "http.response.zerocopysend"])

/-- What `__call__` reads of an HTTP request on an application with a limiter.
    Route and scope resolution depend on the configuration they find. -/
structure Request where
  client_ip : Option String
  handler_names : Limiter → List String
  scope_identifiers : Limiter → List Rule → Except Failure (OrderedDict String String)
  extensions : Option Extensions

/-- The block a response is sent from. -/
inductive Context where
  | plain
  | ip_check
  | policy_delay
  deriving DecidableEq, Repr

inductive Outcome where
  | returned
  | raised (failure : Failure)
  deriving DecidableEq, Repr

/-- The await `__call__` is suspended in, with the variables it needs
    afterwards. -/
inductive Phase where
  | checking_blocked
  | checking_allowed
  | responding (context : Context)
  | evaluating (evaluation : Evaluation) (route_limit : Option ℤ)
  | delaying (decision : PolicyDecision) (route_limit : Option ℤ)
  | cancelling_delay (failure : Failure)
  | unlimited_app
  | limited_app (max_rate : ℤ) (original_extensions : Option Extensions)
  | finished (outcome : Outcome)

/-- What a request did that others can see. `exited` tells whether the count was
    above the guard of `exit_response`. -/
inductive Event where
  | responding (response : Response)
  | hit_requested (request_key handler_name : String) (rule_index : Nat)
  | app_invoked (max_rate : Option ℤ) (extensions : Option Extensions)
  | entered
  | exited (counted : Bool)
  deriving DecidableEq, Repr

/-- A request on its way through `__call__`, with the current binding of
    `scope["extensions"]`. -/
structure Task where
  request : Request
  extensions : Option Extensions
  phase : Phase
  log : List Event

/-- What the awaited call came back with. -/
inductive Answer where
  | found (present : Bool)
  | hit (result : SlidingWindowResult)
  | timer (done : Bool)
  | returned
  | raised (failure : Failure)

/-- A task that runs, and the coordinator it shares with the others. -/
structure Frame where
  coordinator : ShutdownCoordinator
  task : Task

namespace Frame

def note (self : Frame) (event : Event) : Frame :=
  { self with task := { self.task with log := self.task.log ++ [event] } }

def await (self : Frame) (phase : Phase) : Frame :=
  { self with task := { self.task with phase } }

def bind_extensions (self : Frame) (extensions : Option Extensions) : Frame :=
  { self with task := { self.task with extensions } }

def enter_response (self : Frame) : Frame :=
  { self with coordinator := self.coordinator.enter_response }.note .entered

def exit_response (self : Frame) : Frame :=
  { self with coordinator := self.coordinator.exit_response }.note (.exited (self.coordinator.in_flight > 0))

def finish (self : Frame) (outcome : Outcome) : Frame := self.await (.finished outcome)

def respond (self : Frame) (response : Response) (context : Context) : Frame :=
  (self.note (.responding response)).await (.responding context)

def call_app (self : Frame) : Frame :=
  (self.note (.app_invoked none self.task.extensions)).await .unlimited_app

def call_limited_app (self : Frame) (max_rate : ℤ) : Frame :=
  let self := self.enter_response
  let original_extensions := self.task.extensions
  let self :=
    if original_extensions.isSome then self.bind_extensions (original_extensions.map Extensions.paced) else self
  (self.note (.app_invoked (some max_rate) self.task.extensions)).await
    (.limited_app max_rate original_extensions)

/-- The `finally` of the limited call. -/
def leave_limited_app (self : Frame) (original_extensions : Option Extensions) (outcome : Outcome) : Frame :=
  let self := if original_extensions.isSome then self.bind_extensions original_extensions else self
  self.exit_response.finish outcome

/-- From the choice of `max_rate` on. -/
def dispatch (self : Frame) (decision : Option PolicyDecision) (route_limit : Option ℤ) : Frame :=
  match (decision.bind PolicyDecision.throttle_rate).or route_limit with
  | none => self.call_app
  | some max_rate => self.call_limited_app max_rate

/-- A turn of the loop in `_sleep_for_policy_delay`. On an abort the timer is
    cancelled and awaited before the error leaves the block. -/
def poll_delay (self : Frame) (decision : PolicyDecision) (route_limit : Option ℤ) : Frame :=
  if self.coordinator.should_abort then self.await (.cancelling_delay .streaming_aborted_error)
  else self.await (.delaying decision route_limit)

/-- An error leaves the delay block; an abort ends the request quietly. -/
def leave_delay (self : Frame) (failure : Failure) : Frame :=
  if failure = .streaming_aborted_error then self.exit_response.finish .returned
  else self.exit_response.finish (.raised failure)

/-- The timer is done, so awaiting it again in the `finally` does not suspend. -/
def complete_delay (self : Frame) (decision : PolicyDecision) (route_limit : Option ℤ) : Frame :=
  if self.coordinator.should_abort then self.leave_delay .streaming_aborted_error
  else if self.coordinator.is_shutting_down then self.respond build_shutdown_response .policy_delay
  else self.exit_response.dispatch (some decision) route_limit

/-- From the decision of a matched rule on. -/
def decide (self : Frame) (decision : PolicyDecision) (route_limit : Option ℤ) : Frame :=
  if decision.reject then self.respond (build_reject_response decision) .plain
  else if decision.pre_delay > 0 then self.enter_response.poll_delay decision route_limit
  else self.dispatch (some decision) route_limit

/-- Policy evaluation up to its next `record_hit` call or its end. -/
def evaluate (self : Frame) (evaluation : Evaluation) (route_limit : Option ℤ) : Frame :=
  match evaluation.next with
  | .finish none => self.dispatch none route_limit
  | .finish (some matched) => self.decide (matched.rule.action.decide matched.retry_after) route_limit
  | .fail _ => self.finish (.raised .value_error)
  | .record_hit request_key rule_index _ =>
    (self.note (.hit_requested request_key evaluation.handler_name rule_index)).await
      (.evaluating evaluation route_limit)

/-- From the route lookup on, after the IP checks. -/
def proceed (limiter : Limiter) (self : Frame) (ip_allowed : Bool) : Frame :=
  match self.task.request.handler_names limiter with
  | [] => self.call_app
  | first :: rest =>
    let route_limit := limiter.select_route_limit (first :: rest)
    let (policy_handler_name, rules) := limiter.select_policy_rules (first :: rest)
    if self.coordinator.is_shutting_down && (route_limit.isSome || !rules.isEmpty) then
      self.respond build_shutdown_response .plain
    else if rules.isEmpty then self.dispatch none route_limit
    else
      match self.task.request.scope_identifiers limiter rules with
      | .error .value_error => self.respond build_backend_unavailable_response .plain
      | .error failure => self.finish (.raised failure)
      | .ok scope_identifiers =>
        if ip_allowed then self.dispatch none route_limit
        else self.evaluate (.start scope_identifiers (policy_handler_name.getD first) rules) route_limit

/-- `__call__` up to its first await. -/
def start (limiter : Limiter) (coordinator : ShutdownCoordinator) (request : Request) : Frame :=
  let self : Frame := ⟨coordinator, ⟨request, request.extensions, .checking_blocked, []⟩⟩
  if request.client_ip.isSome then self else self.proceed limiter false

/-- `except StorageUnavailableError`. -/
def fail_closed (self : Frame) (failure : Failure) : Frame :=
  if failure = .storage_unavailable_error then self.respond build_backend_unavailable_response .plain
  else self.finish (.raised failure)

/-- The handlers around the await the request is suspended in, for what the
    awaited call raises. -/
def handle (self : Frame) (failure : Failure) : Option Frame :=
  match self.task.phase with
  | .checking_blocked => some (self.fail_closed failure)
  | .checking_allowed => some (self.fail_closed failure)
  | .responding .plain => some (self.finish (.raised failure))
  -- The blocked response is sent inside the `try` of the lookups.
  | .responding .ip_check => some (self.fail_closed failure)
  | .responding .policy_delay => some (self.leave_delay failure)
  | .evaluating _ _ => some (self.fail_closed failure)
  | .delaying _ _ => some (self.await (.cancelling_delay failure))
  -- `suppress(CancelledError)` also swallows a cancellation of the request here.
  | .cancelling_delay pending =>
    some (self.leave_delay (if failure = .cancelled_error then pending else failure))
  | .unlimited_app => some (self.finish (.raised failure))
  | .limited_app _ original_extensions =>
    some (self.leave_limited_app original_extensions
      (if failure = .streaming_aborted_error then .returned else .raised failure))
  | .finished _ => none

/-- `__call__` from an await to the next one. -/
def resume (limiter : Limiter) (self : Frame) (answer : Answer) : Option Frame :=
  match self.task.phase, answer with
  | .checking_blocked, .found true => some (self.respond build_blocked_ip_response .ip_check)
  | .checking_blocked, .found false => some (self.await .checking_allowed)
  | .checking_allowed, .found ip_allowed => some (self.proceed limiter ip_allowed)
  | .responding .policy_delay, .returned => some (self.exit_response.finish .returned)
  | .responding _, .returned => some (self.finish .returned)
  | .evaluating evaluation route_limit, .hit result =>
    some (self.evaluate (evaluation.resume result) route_limit)
  | .delaying decision route_limit, .timer true => some (self.complete_delay decision route_limit)
  | .delaying decision route_limit, .timer false => some (self.poll_delay decision route_limit)
  | .cancelling_delay pending, .returned => some (self.leave_delay pending)
  | .unlimited_app, .returned => some (self.finish .returned)
  | .limited_app _ original_extensions, .returned =>
    some (self.leave_limited_app original_extensions .returned)
  | _, .raised failure => self.handle failure
  | _, _ => none

section Request

variable (self : Frame)

@[simp] theorem note_request (event : Event) : (self.note event).task.request = self.task.request := rfl

@[simp] theorem await_request (phase : Phase) : (self.await phase).task.request = self.task.request := rfl

@[simp] theorem bind_extensions_request (extensions : Option Extensions) :
    (self.bind_extensions extensions).task.request = self.task.request := rfl

@[simp] theorem enter_response_request : self.enter_response.task.request = self.task.request := rfl

@[simp] theorem exit_response_request : self.exit_response.task.request = self.task.request := rfl

@[simp] theorem finish_request (outcome : Outcome) : (self.finish outcome).task.request = self.task.request := rfl

@[simp] theorem respond_request (response : Response) (context : Context) :
    (self.respond response context).task.request = self.task.request := rfl

@[simp] theorem call_app_request : self.call_app.task.request = self.task.request := rfl

@[simp] theorem call_limited_app_request (max_rate : ℤ) :
    (self.call_limited_app max_rate).task.request = self.task.request := by
  unfold call_limited_app
  simp only
  split <;> simp

@[simp] theorem leave_limited_app_request (original_extensions : Option Extensions) (outcome : Outcome) :
    (self.leave_limited_app original_extensions outcome).task.request = self.task.request := by
  unfold leave_limited_app
  simp only
  split <;> simp

@[simp] theorem dispatch_request (decision : Option PolicyDecision) (route_limit : Option ℤ) :
    (self.dispatch decision route_limit).task.request = self.task.request := by
  unfold dispatch
  split <;> simp

@[simp] theorem poll_delay_request (decision : PolicyDecision) (route_limit : Option ℤ) :
    (self.poll_delay decision route_limit).task.request = self.task.request := by
  unfold poll_delay
  split <;> simp

@[simp] theorem leave_delay_request (failure : Failure) :
    (self.leave_delay failure).task.request = self.task.request := by
  unfold leave_delay
  split <;> simp

@[simp] theorem complete_delay_request (decision : PolicyDecision) (route_limit : Option ℤ) :
    (self.complete_delay decision route_limit).task.request = self.task.request := by
  unfold complete_delay
  split
  · simp
  · split <;> simp

@[simp] theorem decide_request (decision : PolicyDecision) (route_limit : Option ℤ) :
    (self.decide decision route_limit).task.request = self.task.request := by
  unfold decide
  split
  · simp
  · split <;> simp

@[simp] theorem evaluate_request (evaluation : Evaluation) (route_limit : Option ℤ) :
    (self.evaluate evaluation route_limit).task.request = self.task.request := by
  unfold evaluate
  split <;> simp

@[simp] theorem proceed_request (limiter : Limiter) (ip_allowed : Bool) :
    (self.proceed limiter ip_allowed).task.request = self.task.request := by
  unfold proceed
  split
  · simp
  · simp only
    split
    · simp
    split
    · simp
    split
    · simp
    · simp
    split <;> simp

@[simp] theorem fail_closed_request (failure : Failure) :
    (self.fail_closed failure).task.request = self.task.request := by
  unfold fail_closed
  split <;> simp

variable {self}

theorem handle_request {failure : Failure} {next : Frame} (hhandle : self.handle failure = some next) :
    next.task.request = self.task.request := by
  unfold handle at hhandle
  split at hhandle <;> cases hhandle <;> simp

/-- A request stays the one that arrived. -/
theorem resume_request {limiter : Limiter} {answer : Answer} {next : Frame}
    (hresume : self.resume limiter answer = some next) : next.task.request = self.task.request := by
  unfold resume at hresume
  split at hresume
  case h_12 => exact handle_request hresume
  all_goals cases hresume <;> simp

theorem start_request (limiter : Limiter) (coordinator : ShutdownCoordinator) (request : Request) :
    (start limiter coordinator request).task.request = request := by
  unfold start
  split <;> simp

end Request

end Frame

/-- The requests on one middleware, their coordinator and the limiter's
    configuration. -/
structure World where
  coordinator : ShutdownCoordinator
  limiter : Limiter
  tasks : List Task

/-- A step of the system: a request arrives or its awaited call comes back, an
    application rebinds the extensions of its scope, shutdown begins, or the
    configuration changes. -/
inductive Label where
  | arrive (request : Request)
  | resume (index : Nat) (answer : Answer)
  | rebind (index : Nat) (extensions : Option Extensions)
  | begin_shutdown (mode : ShutdownMode)
  | configure (limiter : Limiter)

/-- Whether the application is running with the scope of the request. -/
def Task.in_app (self : Task) : Bool :=
  match self.phase with
  | .unlimited_app => true
  | .limited_app _ _ => true
  | _ => false

namespace World

def init (limiter : Limiter) : World := ⟨.init, limiter, []⟩

def step (self : World) : Label → Option World
  | .arrive request =>
    let frame := Frame.start self.limiter self.coordinator request
    some { self with coordinator := frame.coordinator, tasks := self.tasks ++ [frame.task] }
  | .resume index answer =>
    match self.tasks[index]? with
    | none => none
    | some task =>
      match Frame.resume self.limiter ⟨self.coordinator, task⟩ answer with
      | none => none
      | some frame =>
        some { self with coordinator := frame.coordinator, tasks := self.tasks.set index frame.task }
  | .rebind index extensions =>
    match self.tasks[index]? with
    | none => none
    | some task =>
      if task.in_app then some { self with tasks := self.tasks.set index { task with extensions } } else none
  | .begin_shutdown mode => some { self with coordinator := self.coordinator.begin_shutdown mode }
  | .configure limiter => some { self with limiter }

theorem step_resume {self next : World} {index : Nat} {answer : Answer}
    (hstep : self.step (.resume index answer) = some next) :
    ∃ task frame, self.tasks[index]? = some task ∧
      Frame.resume self.limiter ⟨self.coordinator, task⟩ answer = some frame ∧
      next = { self with coordinator := frame.coordinator, tasks := self.tasks.set index frame.task } := by
  simp only [step] at hstep
  split at hstep
  · cases hstep
  · next task htask =>
    split at hstep
    · cases hstep
    · next frame hframe => exact ⟨task, frame, htask, hframe, (Option.some.inj hstep).symm⟩

theorem step_rebind {self next : World} {index : Nat} {extensions : Option Extensions}
    (hstep : self.step (.rebind index extensions) = some next) :
    ∃ task, self.tasks[index]? = some task ∧ task.in_app ∧
      next = { self with tasks := self.tasks.set index { task with extensions } } := by
  simp only [step] at hstep
  split at hstep
  · cases hstep
  · next task htask =>
    split at hstep
    · next happ => exact ⟨task, htask, happ, (Option.some.inj hstep).symm⟩
    · cases hstep

/-- The state after a run from the start. -/
def run (limiter : Limiter) (labels : List Label) : Option World := execute step (init limiter) labels

end World

end response_bandwidth_limiter.middleware

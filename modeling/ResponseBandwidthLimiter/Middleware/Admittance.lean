import ResponseBandwidthLimiter.Identity
import ResponseBandwidthLimiter.Middleware.Task

open collections
open response_bandwidth_limiter.base response_bandwidth_limiter.models response_bandwidth_limiter.policy
open response_bandwidth_limiter.limiter response_bandwidth_limiter.shutdown response_bandwidth_limiter.identity
open response_bandwidth_limiter.ip_manager

namespace response_bandwidth_limiter.middleware

/-- How an exception of the library reaches `__call__`. -/
def Failure.of_error : PyError → Failure
  | .value_error _ => .value_error
  | .storage_unavailable_error _ => .storage_unavailable_error
  | _ => .exception

/-- A request with what its identities are read from. -/
structure Arrival (Address : Type) where
  ips : IpLibrary Address
  http : HttpRequest
  trusted_proxy_headers : Bool
  handler_names : Limiter → List String
  extensions : Option Extensions

def Arrival.request {Address : Type} (self : Arrival Address) : Request where
  client_ip := get_client_ip self.ips self.http self.trusted_proxy_headers
  handler_names := self.handler_names
  scope_identifiers limiter rules :=
    (resolve_scope_identifiers self.ips self.http limiter self.trusted_proxy_headers rules).mapError Failure.of_error
  extensions := self.extensions

/-- Scopes are resolved for every rule, or not at all because of a ValueError. -/
structure Request.Resolves (request : Request) : Prop where
  identified : ∀ limiter rules scope_identifiers, request.scope_identifiers limiter rules = .ok scope_identifiers →
    ∀ rule ∈ rules, scope_identifiers.get? rule.scope ≠ none
  failure : ∀ limiter rules failure, request.scope_identifiers limiter rules = .error failure →
    failure = .value_error

theorem Arrival.request_resolves {Address : Type} (self : Arrival Address) : self.request.Resolves where
  identified limiter rules scope_identifiers hok := by
    cases hresolve : resolve_scope_identifiers self.ips self.http limiter self.trusted_proxy_headers rules with
    | error e => simp [Arrival.request, hresolve, Except.mapError] at hok
    | ok resolved =>
      simp only [Arrival.request, hresolve, Except.mapError, Except.ok.injEq] at hok
      exact hok ▸ resolve_scope_identifiers_identified hresolve
  failure limiter rules failure herror := by
    cases hresolve : resolve_scope_identifiers self.ips self.http limiter self.trusted_proxy_headers rules with
    | error e =>
      obtain ⟨message, rfl⟩ := resolve_scope_identifiers_error hresolve
      simpa [Arrival.request, hresolve, Except.mapError, Failure.of_error] using herror.symm
    | ok resolved => simp [Arrival.request, hresolve, Except.mapError] at herror

/-- What a suspended request finds when its await comes back. -/
structure Moment where
  limiter : Limiter
  coordinator : ShutdownCoordinator
  answer : Answer

/-- The coordinator as a request last found it, and the moments to come. -/
structure Course where
  coordinator : ShutdownCoordinator
  later : List Moment

/-- `record_hit` as an evaluation meets it: the next moment brings its result,
    or the storage is unavailable. -/
def Course.record_hit : RecordHit Course := fun course _ _ _ _ _ =>
  match course.later with
  | ⟨_, coordinator, .hit result⟩ :: later => (.ok result, ⟨coordinator, later⟩)
  | _ => (.error (.storage_unavailable_error ""), course)

/-- No abort is observed when a delay begins and whenever its timer is polled,
    and no shutdown when the timer is done. -/
inductive Course.DelayPasses : Course → Prop
  | done {coordinator last : ShutdownCoordinator} {limiter : Limiter} {later : List Moment}
      (hbegin : ¬ coordinator.should_abort) (hend : ¬ last.is_shutting_down) :
      DelayPasses ⟨coordinator, ⟨limiter, last, .timer true⟩ :: later⟩
  | poll {coordinator next : ShutdownCoordinator} {limiter : Limiter} {later : List Moment}
      (hbegin : ¬ coordinator.should_abort) (hlater : DelayPasses ⟨next, later⟩) :
      DelayPasses ⟨coordinator, ⟨limiter, next, .timer false⟩ :: later⟩

/-- An abort is observed when a delay begins, at a poll of its timer, or when
    the timer is done. -/
inductive Course.DelayAborts : Course → Prop
  | now {coordinator : ShutdownCoordinator} {later : List Moment} (habort : coordinator.should_abort) :
      DelayAborts ⟨coordinator, later⟩
  | done {coordinator last : ShutdownCoordinator} {limiter : Limiter} {later : List Moment}
      (habort : last.should_abort) : DelayAborts ⟨coordinator, ⟨limiter, last, .timer true⟩ :: later⟩
  | poll {coordinator next : ShutdownCoordinator} {limiter : Limiter} {later : List Moment}
      (hlater : DelayAborts ⟨next, later⟩) :
      DelayAborts ⟨coordinator, ⟨limiter, next, .timer false⟩ :: later⟩

/-- The `record_hit` calls for some rules, by their identifiers. -/
def requests (scope_identifiers : OrderedDict String String) (handler_name : String)
    (numbered : List (Rule × Nat)) : List (Option String × String × Nat) :=
  numbered.map (fun (rule, index) => (scope_identifiers.get? rule.scope, handler_name, index))

/-- A request at the shutdown gate, what it finds there, and the moments to
    come. -/
structure Gate where
  limiter : Limiter
  coordinator : ShutdownCoordinator
  ip_allowed : Bool
  later : List Moment

/-- The gate, if the request comes there: at once without a client IP, otherwise
    when the first lookup found no block and the second one came back too. -/
def reach_gate (request : Request) (limiter : Limiter) (coordinator : ShutdownCoordinator)
    (moments : List Moment) : Option Gate :=
  match request.client_ip, moments with
  | none, later => some ⟨limiter, coordinator, false, later⟩
  | some _, ⟨_, _, .found false⟩ :: ⟨limiter, coordinator, .found ip_allowed⟩ :: later =>
    some ⟨limiter, coordinator, ip_allowed, later⟩
  | some _, _ => none

namespace Gate

variable (self : Gate) (request : Request)

def route_limit : Option ℤ := self.limiter.select_route_limit (request.handler_names self.limiter)

def policy_handler_name : String :=
  (self.limiter.select_policy_rules (request.handler_names self.limiter)).1.getD ""

def rules : List Rule := (self.limiter.select_policy_rules (request.handler_names self.limiter)).2

/-- Shutdown has begun, and the handler has a limit or rules. -/
def closed : Bool :=
  self.coordinator.is_shutting_down && ((self.route_limit request).isSome || !(self.rules request).isEmpty)

/-- The identifiers for the rules, if there are any rules. -/
def scope_identifiers : Except Failure (OrderedDict String String) :=
  if (self.rules request).isEmpty then .ok .empty
  else request.scope_identifiers self.limiter (self.rules request)

/-- The identifiers the request is counted by, if it is to be counted: the
    handler has rules, the gate and the resolution let the request pass, and its
    address is not on the allow list. -/
def counting : Option (OrderedDict String String) :=
  if self.closed request || (self.rules request).isEmpty || self.ip_allowed then none
  else (self.scope_identifiers request).toOption

/-- The `record_hit` calls the request is to be counted by, one for each rule. -/
def due_hits : List (Option String × String × Nat) :=
  match self.counting request with
  | none => []
  | some scope_identifiers =>
    requests scope_identifiers (self.policy_handler_name request) (self.rules request).zipIdx

/-- The evaluation of the policy over the moments to come. -/
def evaluation (scope_identifiers : OrderedDict String String) :
    Except PyError (Option MatchedPolicy) × Course :=
  evaluate Course.record_hit ⟨self.coordinator, self.later⟩ scope_identifiers (self.policy_handler_name request)
    (self.rules request)

/-- The decision of the selected action, if one was selected, and the course
    after the evaluation. -/
def selected : Option (PolicyDecision × Course) :=
  match self.counting request with
  | none => none
  | some scope_identifiers =>
    match self.evaluation request scope_identifiers with
    | (.ok (some matched), course) => some (matched.rule.action.decide matched.retry_after, course)
    | _ => none

end Gate

/-- Nothing at the gate or after it keeps the request from the application. -/
structure Gate.Passed (gate : Gate) (request : Request) : Prop where
  opened : ¬ gate.closed request
  resolved : ∃ scope_identifiers, gate.scope_identifiers request = .ok scope_identifiers
  available : ∀ scope_identifiers ∈ gate.counting request,
    ∃ selected course, gate.evaluation request scope_identifiers = (.ok selected, course)
  accepted : ∀ decision course, gate.selected request = some (decision, course) → decision.reject = false
  undisturbed : ∀ decision course, gate.selected request = some (decision, course) → 0 < decision.pre_delay →
    course.DelayPasses

section Conditions

variable (request : Request) (limiter : Limiter) (coordinator : ShutdownCoordinator) (moments : List Moment)

/-- The address of the request, if it has one, is not blocked, and nothing after
    the lookups keeps it from the application. -/
def Admitted : Prop := ∃ gate, reach_gate request limiter coordinator moments = some gate ∧ gate.Passed request

/-- The selected action rejects the request. -/
def Rejected (decision : PolicyDecision) : Prop :=
  ∃ gate course, reach_gate request limiter coordinator moments = some gate ∧
    gate.selected request = some (decision, course) ∧ decision.reject

/-- An abort ended the delay of the request. -/
def DelayAborted : Prop :=
  ∃ gate decision course, reach_gate request limiter coordinator moments = some gate ∧
    gate.selected request = some (decision, course) ∧ decision.reject = false ∧ 0 < decision.pre_delay ∧
    course.DelayAborts

/-- How many hits came back one after the other. -/
def returned_hits : List Moment → Nat
  | ⟨_, _, .hit _⟩ :: later => returned_hits later + 1
  | _ => 0

/-- The `record_hit` calls a request makes: those that are due, up to the first
    one that has not come back. -/
def requested_hits : List (Option String × String × Nat) :=
  match reach_gate request limiter coordinator moments with
  | none => []
  | some gate => (gate.due_hits request).take (returned_hits gate.later + 1)

end Conditions

/-- What becomes of a request. -/
inductive Ruling where
  | pass
  | refuse (response : Response)
  | drop
  deriving DecidableEq, Repr

/-- What becomes of a request when the timer of its delay is done. -/
def delay_end (coordinator : ShutdownCoordinator) : Ruling :=
  if coordinator.should_abort then .drop
  else if coordinator.is_shutting_down then .refuse build_shutdown_response
  else .pass

/-- The end of a policy delay, when it has come. -/
def delay_ruling (coordinator : ShutdownCoordinator) (moments : List Moment) : Option Ruling :=
  if coordinator.should_abort then some .drop
  else
    match moments with
    | ⟨_, coordinator, .timer false⟩ :: later => delay_ruling coordinator later
    | ⟨_, coordinator, .timer true⟩ :: _ => some (delay_end coordinator)
    | _ => none

def decision_ruling (decision : PolicyDecision) (course : Course) : Option Ruling :=
  if decision.reject then some (.refuse (build_reject_response decision))
  else if decision.pre_delay > 0 then delay_ruling course.coordinator course.later
  else some .pass

/-- An evaluation that found no hit failed if there was a moment to find it at,
    and waits otherwise. -/
def evaluation_ruling (evaluated : Except PyError (Option MatchedPolicy) × Course) : Option Ruling :=
  match evaluated with
  | (.ok none, _) => some .pass
  | (.ok (some matched), course) => decision_ruling (matched.rule.action.decide matched.retry_after) course
  | (.error _, course) => if course.later.isEmpty then none else some (.refuse build_backend_unavailable_response)

def Gate.ruling (self : Gate) (request : Request) : Option Ruling :=
  if self.closed request then some (.refuse build_shutdown_response)
  else
    match self.scope_identifiers request with
    | .error _ => some (.refuse build_backend_unavailable_response)
    | .ok scope_identifiers =>
      if (self.rules request).isEmpty || self.ip_allowed then some .pass
      else evaluation_ruling (self.evaluation request scope_identifiers)

/-- What becomes of a request over its moments, once they tell. -/
def ruling (request : Request) (limiter : Limiter) (coordinator : ShutdownCoordinator) (moments : List Moment) :
    Option Ruling :=
  match reach_gate request limiter coordinator moments, moments with
  | some gate, _ => gate.ruling request
  | none, ⟨_, _, .found true⟩ :: _ => some (.refuse build_blocked_ip_response)
  | none, ⟨_, _, .raised _⟩ :: _ => some (.refuse build_backend_unavailable_response)
  | none, ⟨_, _, .found false⟩ :: ⟨_, _, .raised _⟩ :: _ => some (.refuse build_backend_unavailable_response)
  | none, _ => none

theorem delay_end_pass_iff {coordinator : ShutdownCoordinator} :
    delay_end coordinator = .pass ↔ ¬ coordinator.is_shutting_down := by
  unfold delay_end ShutdownCoordinator.should_abort ShutdownCoordinator.is_shutting_down
  cases coordinator.shutting_down with
  | false => simp
  | true => split <;> simp

theorem delay_end_drop_iff {coordinator : ShutdownCoordinator} :
    delay_end coordinator = .drop ↔ coordinator.should_abort := by
  unfold delay_end
  split_ifs with habort hdown <;> simp [habort]

theorem delay_end_refuse {coordinator : ShutdownCoordinator} {response : Response}
    (hrefuse : delay_end coordinator = .refuse response) : response = build_shutdown_response := by
  unfold delay_end at hrefuse
  split_ifs at hrefuse
  cases hrefuse
  rfl

theorem delay_ruling_pass_iff {coordinator : ShutdownCoordinator} {moments : List Moment} :
    delay_ruling coordinator moments = some .pass ↔ Course.DelayPasses ⟨coordinator, moments⟩ := by
  constructor
  · intro hpass
    induction moments generalizing coordinator with
    | nil => simp [delay_ruling] at hpass
    | cons moment later ih =>
      unfold delay_ruling at hpass
      split at hpass
      · cases hpass
      next hbegin =>
      split at hpass
      · next heq =>
        cases heq
        exact .poll hbegin (ih hpass)
      · next heq =>
        cases heq
        exact .done hbegin (delay_end_pass_iff.mp (Option.some.inj hpass))
      · cases hpass
  · intro hpasses
    generalize hcourse : (⟨coordinator, moments⟩ : Course) = course at hpasses
    induction hpasses generalizing coordinator moments with
    | done hbegin hend =>
      cases hcourse
      rw [delay_ruling, if_neg hbegin]
      exact congrArg some (delay_end_pass_iff.mpr hend)
    | poll hbegin hlater ih =>
      cases hcourse
      rw [delay_ruling, if_neg hbegin]
      exact ih rfl

theorem delay_ruling_drop_iff {coordinator : ShutdownCoordinator} {moments : List Moment} :
    delay_ruling coordinator moments = some .drop ↔ Course.DelayAborts ⟨coordinator, moments⟩ := by
  constructor
  · intro hdrop
    induction moments generalizing coordinator with
    | nil => exact .now (by simpa [delay_ruling] using hdrop)
    | cons moment later ih =>
      unfold delay_ruling at hdrop
      split at hdrop
      · next habort => exact .now habort
      split at hdrop
      · next heq =>
        cases heq
        exact .poll (ih hdrop)
      · next heq =>
        cases heq
        exact .done (delay_end_drop_iff.mp (Option.some.inj hdrop))
      · cases hdrop
  · intro haborts
    generalize hcourse : (⟨coordinator, moments⟩ : Course) = course at haborts
    induction haborts generalizing coordinator moments with
    | now habort =>
      cases hcourse
      unfold delay_ruling
      rw [if_pos habort]
    | done habort =>
      cases hcourse
      unfold delay_ruling
      split
      · rfl
      · exact congrArg some (delay_end_drop_iff.mpr habort)
    | poll hlater ih =>
      cases hcourse
      unfold delay_ruling
      split
      · rfl
      · exact ih rfl

theorem delay_ruling_refuse {coordinator : ShutdownCoordinator} {moments : List Moment} {response : Response}
    (hrefuse : delay_ruling coordinator moments = some (.refuse response)) : response = build_shutdown_response := by
  induction moments generalizing coordinator with
  | nil => simp [delay_ruling] at hrefuse
  | cons moment later ih =>
    unfold delay_ruling at hrefuse
    split at hrefuse
    · cases hrefuse
    split at hrefuse
    · next heq =>
      cases heq
      exact ih hrefuse
    · exact delay_end_refuse (Option.some.inj hrefuse)
    · cases hrefuse

/-- A delay does not read the count that its begin changes. -/
theorem delay_ruling_enter_response (coordinator : ShutdownCoordinator) (moments : List Moment) :
    delay_ruling coordinator.enter_response moments = delay_ruling coordinator moments := by
  unfold delay_ruling
  rfl

namespace Gate

variable {gate : Gate} {request : Request}

theorem counting_eq_some_iff {scope_identifiers : OrderedDict String String} :
    gate.counting request = some scope_identifiers ↔
      gate.closed request = false ∧ (gate.rules request).isEmpty = false ∧ gate.ip_allowed = false ∧
        gate.scope_identifiers request = .ok scope_identifiers := by
  unfold counting
  cases gate.closed request <;> cases (gate.rules request).isEmpty <;> cases gate.ip_allowed <;>
    cases gate.scope_identifiers request <;> simp [Except.toOption]

/-- A request is turned away at the gate or by its scopes, admitted uncounted, or
    ruled on by its evaluation. -/
theorem ruling_cases (gate : Gate) (request : Request) :
    (gate.closed request ∧ gate.ruling request = some (.refuse build_shutdown_response)) ∨
    ((∃ failure, gate.scope_identifiers request = .error failure) ∧
      gate.ruling request = some (.refuse build_backend_unavailable_response)) ∨
    (¬ gate.closed request ∧ (∃ scope_identifiers, gate.scope_identifiers request = .ok scope_identifiers) ∧
      gate.counting request = none ∧ gate.ruling request = some .pass) ∨
    ∃ scope_identifiers, ¬ gate.closed request ∧ gate.scope_identifiers request = .ok scope_identifiers ∧
      gate.counting request = some scope_identifiers ∧
      gate.ruling request = evaluation_ruling (gate.evaluation request scope_identifiers) := by
  unfold ruling
  by_cases hclosed : gate.closed request
  · exact Or.inl ⟨hclosed, if_pos hclosed⟩
  rw [if_neg hclosed]
  cases hscopes : gate.scope_identifiers request with
  | error failure => exact Or.inr (Or.inl ⟨⟨failure, rfl⟩, rfl⟩)
  | ok scope_identifiers =>
    by_cases huncounted : (gate.rules request).isEmpty || gate.ip_allowed
    · refine Or.inr (Or.inr (Or.inl ⟨hclosed, ⟨scope_identifiers, rfl⟩, ?_, if_pos huncounted⟩))
      rw [counting, Bool.or_assoc, huncounted, Bool.or_true]
      rfl
    · refine Or.inr (Or.inr (Or.inr ⟨scope_identifiers, hclosed, rfl, ?_, if_neg huncounted⟩))
      rw [Bool.not_eq_true, Bool.or_eq_false_iff] at huncounted
      exact counting_eq_some_iff.mpr ⟨Bool.eq_false_iff.mpr hclosed, huncounted.1, huncounted.2, hscopes⟩

theorem due_hits_of_counting_none (hcounting : gate.counting request = none) : gate.due_hits request = [] := by
  rw [due_hits, hcounting]

theorem due_hits_of_counting {scope_identifiers : OrderedDict String String}
    (hcounting : gate.counting request = some scope_identifiers) :
    gate.due_hits request =
      requests scope_identifiers (gate.policy_handler_name request) (gate.rules request).zipIdx := by
  rw [due_hits, hcounting]

theorem selected_of_counting_none (hcounting : gate.counting request = none) : gate.selected request = none := by
  rw [selected, hcounting]

theorem selected_of_counting {scope_identifiers : OrderedDict String String}
    (hcounting : gate.counting request = some scope_identifiers) {matched : MatchedPolicy} {course : Course}
    (hevaluation : gate.evaluation request scope_identifiers = (.ok (some matched), course)) :
    gate.selected request = some (matched.rule.action.decide matched.retry_after, course) := by
  rw [selected, hcounting]
  simp only [hevaluation]

theorem exists_of_selected {decision : PolicyDecision} {course : Course}
    (hselected : gate.selected request = some (decision, course)) :
    ∃ scope_identifiers matched, gate.counting request = some scope_identifiers ∧
      gate.evaluation request scope_identifiers = (.ok (some matched), course) ∧
      decision = matched.rule.action.decide matched.retry_after := by
  cases hcounting : gate.counting request with
  | none =>
    rw [selected_of_counting_none hcounting] at hselected
    cases hselected
  | some scope_identifiers =>
    simp only [selected, hcounting] at hselected
    split at hselected
    · next matched found hevaluation =>
      cases hselected
      exact ⟨scope_identifiers, matched, rfl, hevaluation, rfl⟩
    · cases hselected

theorem ruling_of_counting {scope_identifiers : OrderedDict String String}
    (hcounting : gate.counting request = some scope_identifiers) :
    gate.ruling request = evaluation_ruling (gate.evaluation request scope_identifiers) := by
  obtain ⟨hclosed, hrules, hallowed, hscopes⟩ := counting_eq_some_iff.mp hcounting
  simp [ruling, hclosed, hrules, hallowed, hscopes]

theorem ruling_of_selected {decision : PolicyDecision} {course : Course}
    (hselected : gate.selected request = some (decision, course)) :
    gate.ruling request = decision_ruling decision course := by
  obtain ⟨scope_identifiers, matched, hcounting, hevaluation, rfl⟩ := exists_of_selected hselected
  rw [ruling_of_counting hcounting, hevaluation]
  rfl

theorem ruling_pass_iff : gate.ruling request = some .pass ↔ gate.Passed request := by
  constructor
  · intro hpass
    rcases gate.ruling_cases request with ⟨-, hruling⟩ | ⟨-, hruling⟩ | ⟨hopened, hresolved, hcounting, -⟩ |
        ⟨scope_identifiers, hopened, hscopes, hcounting, hruling⟩
    · rw [hruling] at hpass
      cases hpass
    · rw [hruling] at hpass
      cases hpass
    · have hselected : gate.selected request = none := selected_of_counting_none hcounting
      exact ⟨hopened, hresolved, by simp [hcounting], by simp [hselected], by simp [hselected]⟩
    · refine ⟨hopened, ⟨scope_identifiers, hscopes⟩, ?_, ?_, ?_⟩
      · rintro _ hidentifiers
        cases hcounting.symm.trans hidentifiers
        obtain ⟨evaluated, course, hevaluation⟩ :
          ∃ evaluated course, gate.evaluation request scope_identifiers = (evaluated, course) := ⟨_, _, rfl⟩
        cases evaluated with
        | error e =>
          rw [hruling, hevaluation, evaluation_ruling] at hpass
          split at hpass <;> cases hpass
        | ok selected => exact ⟨selected, course, hevaluation⟩
      · intro decision course hselected
        rw [ruling_of_selected hselected, decision_ruling] at hpass
        split at hpass
        · cases hpass
        · next hreject => exact Bool.eq_false_iff.mpr hreject
      · intro decision course hselected hdelay
        rw [ruling_of_selected hselected, decision_ruling] at hpass
        split at hpass
        · cases hpass
        · exact delay_ruling_pass_iff.mp hpass
  · intro hpassed
    rcases gate.ruling_cases request with ⟨hclosed, -⟩ | ⟨⟨failure, hfailure⟩, -⟩ | ⟨-, -, -, hruling⟩ |
        ⟨scope_identifiers, -, -, hcounting, hruling⟩
    · exact absurd hclosed hpassed.opened
    · obtain ⟨scope_identifiers, hresolved⟩ := hpassed.resolved
      cases hfailure.symm.trans hresolved
    · exact hruling
    · obtain ⟨selected, course, hevaluation⟩ := hpassed.available scope_identifiers hcounting
      cases selected with
      | none =>
        rw [hruling, hevaluation]
        rfl
      | some matched =>
        have hselected := selected_of_counting hcounting hevaluation
        rw [ruling_of_selected hselected, decision_ruling, if_neg (by simp [hpassed.accepted _ _ hselected])]
        split
        · next hdelay => exact delay_ruling_pass_iff.mpr (hpassed.undisturbed _ _ hselected hdelay)
        · rfl

/-- A request that is refused at the gate or after it is told that the server is
    not available, or what the selected action says. -/
theorem ruling_refuse {response : Response} (hrefuse : gate.ruling request = some (.refuse response)) :
    response.status_code = 503 ∨ ∃ decision course, gate.selected request = some (decision, course) ∧
      decision.reject ∧ response = build_reject_response decision := by
  rcases gate.ruling_cases request with ⟨-, hruling⟩ | ⟨-, hruling⟩ | ⟨-, -, -, hruling⟩ |
      ⟨scope_identifiers, -, -, hcounting, hruling⟩
  · cases hrefuse.symm.trans hruling
    exact Or.inl rfl
  · cases hrefuse.symm.trans hruling
    exact Or.inl rfl
  · cases hrefuse.symm.trans hruling
  · obtain ⟨evaluated, course, hevaluation⟩ :
      ∃ evaluated course, gate.evaluation request scope_identifiers = (evaluated, course) := ⟨_, _, rfl⟩
    rw [hruling, hevaluation] at hrefuse
    rcases evaluated with e | _ | matched
    · rw [evaluation_ruling] at hrefuse
      split at hrefuse
      · cases hrefuse
      · cases hrefuse
        exact Or.inl rfl
    · cases hrefuse
    · simp only [evaluation_ruling, decision_ruling] at hrefuse
      split at hrefuse
      · next hreject =>
        cases hrefuse
        exact Or.inr ⟨_, course, selected_of_counting hcounting hevaluation, hreject, rfl⟩
      split at hrefuse
      · rw [delay_ruling_refuse hrefuse]
        exact Or.inl rfl
      · cases hrefuse

theorem ruling_drop_iff : gate.ruling request = some .drop ↔
    ∃ decision course, gate.selected request = some (decision, course) ∧ decision.reject = false ∧
      0 < decision.pre_delay ∧ course.DelayAborts := by
  constructor
  · intro hdrop
    rcases gate.ruling_cases request with ⟨-, hruling⟩ | ⟨-, hruling⟩ | ⟨-, -, -, hruling⟩ |
        ⟨scope_identifiers, -, -, hcounting, hruling⟩
    · cases hdrop.symm.trans hruling
    · cases hdrop.symm.trans hruling
    · cases hdrop.symm.trans hruling
    · obtain ⟨evaluated, course, hevaluation⟩ :
        ∃ evaluated course, gate.evaluation request scope_identifiers = (evaluated, course) := ⟨_, _, rfl⟩
      rw [hruling, hevaluation] at hdrop
      rcases evaluated with e | _ | matched
      · rw [evaluation_ruling] at hdrop
        split at hdrop <;> cases hdrop
      · cases hdrop
      · simp only [evaluation_ruling, decision_ruling] at hdrop
        split at hdrop
        · cases hdrop
        next hreject =>
        split at hdrop
        · next hdelay =>
          exact ⟨_, course, selected_of_counting hcounting hevaluation, Bool.eq_false_iff.mpr hreject, hdelay,
            delay_ruling_drop_iff.mp hdrop⟩
        · cases hdrop
  · rintro ⟨decision, course, hselected, haccepted, hdelay, haborts⟩
    rw [ruling_of_selected hselected, decision_ruling, if_neg (by simp [haccepted]), if_pos hdelay]
    exact delay_ruling_drop_iff.mpr haborts

end Gate

section Request

variable {request : Request} {limiter : Limiter} {coordinator : ShutdownCoordinator} {moments : List Moment}

theorem ruling_of_gate {gate : Gate} (hgate : reach_gate request limiter coordinator moments = some gate) :
    ruling request limiter coordinator moments = gate.ruling request := by
  simp only [ruling, hgate]

theorem ruling_of_no_gate (hgate : reach_gate request limiter coordinator moments = none) :
    ruling request limiter coordinator moments = none ∨
      ruling request limiter coordinator moments = some (.refuse build_blocked_ip_response) ∨
      ruling request limiter coordinator moments = some (.refuse build_backend_unavailable_response) := by
  unfold ruling
  rw [hgate]
  split
  · next heq => cases heq
  · exact Or.inr (Or.inl rfl)
  · exact Or.inr (Or.inr rfl)
  · exact Or.inr (Or.inr rfl)
  · exact Or.inl rfl

theorem ruling_pass_iff :
    ruling request limiter coordinator moments = some .pass ↔ Admitted request limiter coordinator moments := by
  constructor
  · intro hpass
    cases hgate : reach_gate request limiter coordinator moments with
    | none =>
      rcases ruling_of_no_gate hgate with hruling | hruling | hruling <;> cases hruling.symm.trans hpass
    | some gate => exact ⟨gate, hgate, Gate.ruling_pass_iff.mp (ruling_of_gate hgate ▸ hpass)⟩
  · rintro ⟨gate, hgate, hpassed⟩
    rw [ruling_of_gate hgate, Gate.ruling_pass_iff.mpr hpassed]

theorem ruling_refuse {response : Response}
    (hrefuse : ruling request limiter coordinator moments = some (.refuse response)) :
    response.status_code = 403 ∨ response.status_code = 503 ∨
      ∃ decision, Rejected request limiter coordinator moments decision ∧
        response.status_code = decision.reject_status := by
  cases hgate : reach_gate request limiter coordinator moments with
  | none =>
    rcases ruling_of_no_gate hgate with hruling | hruling | hruling
    · cases hruling.symm.trans hrefuse
    · cases hruling.symm.trans hrefuse
      exact Or.inl rfl
    · cases hruling.symm.trans hrefuse
      exact Or.inr (Or.inl rfl)
  | some gate =>
    rw [ruling_of_gate hgate] at hrefuse
    rcases Gate.ruling_refuse hrefuse with hstatus | ⟨decision, course, hselected, hreject, rfl⟩
    · exact Or.inr (Or.inl hstatus)
    · exact Or.inr (Or.inr ⟨decision, ⟨gate, course, hgate, hselected, hreject⟩, rfl⟩)

theorem ruling_drop_iff :
    ruling request limiter coordinator moments = some .drop ↔ DelayAborted request limiter coordinator moments := by
  constructor
  · intro hdrop
    cases hgate : reach_gate request limiter coordinator moments with
    | none =>
      rcases ruling_of_no_gate hgate with hruling | hruling | hruling <;> cases hruling.symm.trans hdrop
    | some gate =>
      obtain ⟨decision, course, hended⟩ := Gate.ruling_drop_iff.mp (ruling_of_gate hgate ▸ hdrop)
      exact ⟨gate, decision, course, hgate, hended⟩
  · rintro ⟨gate, decision, course, hgate, hended⟩
    rw [ruling_of_gate hgate, Gate.ruling_drop_iff.mpr ⟨decision, course, hended⟩]

end Request

end response_bandwidth_limiter.middleware

import ResponseBandwidthLimiter.Collections.Transitions
import ResponseBandwidthLimiter.Middleware.Admittance

open collections
open response_bandwidth_limiter.base response_bandwidth_limiter.models response_bandwidth_limiter.policy
open response_bandwidth_limiter.limiter response_bandwidth_limiter.shutdown response_bandwidth_limiter.identity
open response_bandwidth_limiter.ip_manager

namespace response_bandwidth_limiter.middleware

/-- The answers a request finds that is not cancelled: a storage call comes back
    or raises StorageUnavailableError, the server takes every response, a timer
    does not fail, and a cancelled one ends or raises its cancellation. The
    application may do anything. -/
def Phase.expects : Phase → Answer → Bool
  | .checking_blocked, .raised failure => failure = .storage_unavailable_error
  | .checking_allowed, .raised failure => failure = .storage_unavailable_error
  | .evaluating _ _, .raised failure => failure = .storage_unavailable_error
  | .responding _, .raised _ => false
  | .delaying _ _, .raised _ => false
  | .cancelling_delay _, .raised failure => failure = .cancelled_error
  | _, _ => true

/-- The request waits for what decides on it. -/
def Phase.pending : Phase → Bool
  | .checking_blocked => true
  | .checking_allowed => true
  | .evaluating _ _ => true
  | .delaying _ _ => true
  | _ => false

def Event.response : Event → Option Response
  | .responding response => some response
  | _ => none

def Event.hit : Event → Option (Option String × String × Nat)
  | .hit_requested request_key handler_name rule_index => some (some request_key, handler_name, rule_index)
  | _ => none

def Event.is_invocation : Event → Bool
  | .app_invoked _ _ => true
  | _ => false

namespace Task

variable (self : Task)

/-- The responses the request was given without the application. -/
def responses : List Response := self.log.filterMap Event.response

/-- The `record_hit` calls of the request. -/
def hits : List (Option String × String × Nat) := self.log.filterMap Event.hit

/-- How often the application was invoked. -/
def invocations : Nat := self.log.countP Event.is_invocation

theorem invocations_eq_zero {self : Task} (h : ∀ max_rate seen, .app_invoked max_rate seen ∉ self.log) :
    self.invocations = 0 := by
  rw [invocations, List.countP_eq_zero]
  intro event hevent hinvocation
  cases event with
  | app_invoked max_rate seen => exact h max_rate seen hevent
  | _ => cases hinvocation

end Task

/-- What a ruling looks like in the phase of its request. -/
inductive Shows : Option Ruling → Phase → Prop
  | pending {phase : Phase} (hpending : phase.pending) : Shows none phase
  | unlimited_app : Shows (some .pass) .unlimited_app
  | limited_app {max_rate : ℤ} {original_extensions : Option Extensions} :
      Shows (some .pass) (.limited_app max_rate original_extensions)
  | app_over {outcome : Outcome} : Shows (some .pass) (.finished outcome)
  | responding {response : Response} {context : Context} : Shows (some (.refuse response)) (.responding context)
  | responded {response : Response} : Shows (some (.refuse response)) (.finished .returned)
  | cancelling : Shows (some .drop) (.cancelling_delay .streaming_aborted_error)
  | dropped : Shows (some .drop) (.finished .returned)

def Ruling.responses : Option Ruling → List Response
  | some (.refuse response) => [response]
  | _ => []

namespace Frame

/-- A request goes on at a moment it may meet. -/
def advance (self : Frame) (moment : Moment) : Option Frame :=
  if self.task.phase.expects moment.answer then
    Frame.resume moment.limiter { self with coordinator := moment.coordinator } moment.answer
  else none

theorem execute_advance_cons {self final : Frame} {moment : Moment} {later : List Moment}
    (hrun : execute advance self (moment :: later) = some final) :
    ∃ next, self.task.phase.expects moment.answer ∧
      Frame.resume moment.limiter { self with coordinator := moment.coordinator } moment.answer = some next ∧
      execute advance next later = some final := by
  rw [execute_cons, Option.bind_eq_some_iff] at hrun
  obtain ⟨next, hnext, hlater⟩ := hrun
  unfold advance at hnext
  split at hnext
  · next hexpects => exact ⟨next, hexpects, hnext, hlater⟩
  · cases hnext

section Log

variable (self : Frame)

@[simp] theorem note_responses (event : Event) :
    (self.note event).task.responses = self.task.responses ++ event.response.toList := by
  cases hresponse : event.response <;> simp [note, Task.responses, hresponse]

@[simp] theorem note_hits (event : Event) :
    (self.note event).task.hits = self.task.hits ++ event.hit.toList := by
  cases hhit : event.hit <;> simp [note, Task.hits, hhit]

@[simp] theorem note_invocations (event : Event) :
    (self.note event).task.invocations = self.task.invocations + event.is_invocation.toNat := by
  cases hinvocation : event.is_invocation <;> simp [note, Task.invocations, hinvocation]

@[simp] theorem await_responses (phase : Phase) : (self.await phase).task.responses = self.task.responses := rfl

@[simp] theorem await_hits (phase : Phase) : (self.await phase).task.hits = self.task.hits := rfl

@[simp] theorem await_invocations (phase : Phase) :
    (self.await phase).task.invocations = self.task.invocations := rfl

end Log

/-- Nothing was decided so far on a request that made some calls. -/
structure Fresh (hits : List (Option String × String × Nat)) (frame : Frame) : Prop where
  invocations : frame.task.invocations = 0
  responses : frame.task.responses = []
  hits : frame.task.hits = hits

/-- A request with a ruling, or without one yet, that made some calls. -/
structure Ruled (ruling : Option Ruling) (hits : List (Option String × String × Nat)) (frame : Frame) : Prop where
  shows : Shows ruling frame.task.phase
  invocations : frame.task.invocations = if ruling = some .pass then 1 else 0
  responses : frame.task.responses = Ruling.responses ruling
  hits : frame.task.hits = hits

section Steps

variable {self : Frame} {hits : List (Option String × String × Nat)}

theorem Fresh.note (h : Fresh hits self) {event : Event} (hresponse : event.response = none)
    (hhit : event.hit = none) (hinvocation : event.is_invocation = false) : Fresh hits (self.note event) where
  invocations := by simp [hinvocation, h.invocations]
  responses := by simp [hresponse, h.responses]
  hits := by simp [hhit, h.hits]

theorem Fresh.at_coordinator (h : Fresh hits self) (coordinator : ShutdownCoordinator) :
    Fresh hits { self with coordinator } := ⟨h.invocations, h.responses, h.hits⟩

theorem Fresh.bind_extensions (h : Fresh hits self) (extensions : Option Extensions) :
    Fresh hits (self.bind_extensions extensions) := ⟨h.invocations, h.responses, h.hits⟩

theorem Fresh.enter_response (h : Fresh hits self) : Fresh hits self.enter_response :=
  (h.at_coordinator self.coordinator.enter_response).note rfl rfl rfl

theorem Fresh.exit_response (h : Fresh hits self) : Fresh hits self.exit_response :=
  (h.at_coordinator self.coordinator.exit_response).note rfl rfl rfl

/-- A call of the storage. -/
theorem Fresh.request_hit (h : Fresh hits self) (request_key handler_name : String) (rule_index : Nat) :
    Fresh (hits ++ [(some request_key, handler_name, rule_index)])
      (self.note (.hit_requested request_key handler_name rule_index)) where
  invocations := by simp [Event.is_invocation, h.invocations]
  responses := by simp [Event.response, h.responses]
  hits := by simp [Event.hit, h.hits]

theorem Fresh.await (h : Fresh hits self) {phase : Phase} (hpending : phase.pending) :
    Ruled none hits (self.await phase) := ⟨.pending hpending, h.invocations, h.responses, h.hits⟩

theorem Fresh.cancel_delay (h : Fresh hits self) :
    Ruled (some .drop) hits (self.await (.cancelling_delay .streaming_aborted_error)) :=
  ⟨.cancelling, h.invocations, h.responses, h.hits⟩

theorem Fresh.leave_aborted_delay (h : Fresh hits self) :
    Ruled (some .drop) hits (self.leave_delay .streaming_aborted_error) :=
  ⟨.dropped, h.exit_response.invocations, h.exit_response.responses, h.exit_response.hits⟩

theorem Fresh.respond (h : Fresh hits self) (response : Response) (context : Context) :
    Ruled (some (.refuse response)) hits (self.respond response context) where
  shows := .responding
  invocations := by simp [Frame.respond, Event.is_invocation, h.invocations]
  responses := by simp [Frame.respond, Event.response, h.responses, Ruling.responses]
  hits := by simp [Frame.respond, Event.hit, h.hits]

/-- The call of the application. -/
theorem Fresh.invoke (h : Fresh hits self) {max_rate : Option ℤ} {extensions : Option Extensions} {phase : Phase}
    (hshows : Shows (some .pass) phase) :
    Ruled (some .pass) hits ((self.note (.app_invoked max_rate extensions)).await phase) where
  shows := hshows
  invocations := by simp [Event.is_invocation, h.invocations]
  responses := by simp [Event.response, h.responses, Ruling.responses]
  hits := by simp [Event.hit, h.hits]

theorem Fresh.call_limited_app (h : Fresh hits self) (max_rate : ℤ) :
    Ruled (some .pass) hits (self.call_limited_app max_rate) := by
  have hentered : Fresh hits self.enter_response := h.enter_response
  unfold Frame.call_limited_app
  simp only
  split
  · exact (hentered.bind_extensions _).invoke .limited_app
  · exact hentered.invoke .limited_app

theorem Fresh.dispatch (h : Fresh hits self) (decision : Option PolicyDecision) (route_limit : Option ℤ) :
    Ruled (some .pass) hits (self.dispatch decision route_limit) := by
  unfold Frame.dispatch
  split
  · exact h.invoke .unlimited_app
  · exact h.call_limited_app _

theorem Ruled.at_coordinator {ruling : Option Ruling} (h : Ruled ruling hits self)
    (coordinator : ShutdownCoordinator) : Ruled ruling hits { self with coordinator } :=
  ⟨h.shows, h.invocations, h.responses, h.hits⟩

theorem Ruled.exit_response {ruling : Option Ruling} (h : Ruled ruling hits self) :
    Ruled ruling hits self.exit_response := by
  have hexited : Ruled ruling hits { self with coordinator := self.coordinator.exit_response } :=
    h.at_coordinator self.coordinator.exit_response
  refine ⟨h.shows, (note_invocations _ _).trans ?_, (note_responses _ _).trans ?_, (note_hits _ _).trans ?_⟩
  · exact hexited.invocations
  · exact (List.append_nil _).trans hexited.responses
  · exact (List.append_nil _).trans hexited.hits

theorem Ruled.finish {ruling : Option Ruling} (h : Ruled ruling hits self) {outcome : Outcome}
    (hshows : Shows ruling (.finished outcome)) : Ruled ruling hits (self.finish outcome) :=
  ⟨hshows, h.invocations, h.responses, h.hits⟩

theorem Ruled.leave_limited_app (h : Ruled (some .pass) hits self) (original_extensions : Option Extensions)
    (outcome : Outcome) : Ruled (some .pass) hits (self.leave_limited_app original_extensions outcome) := by
  unfold Frame.leave_limited_app
  simp only
  split
  · have hbound : Ruled (some .pass) hits (self.bind_extensions original_extensions) :=
      ⟨h.shows, h.invocations, h.responses, h.hits⟩
    exact hbound.exit_response.finish .app_over
  · exact h.exit_response.finish .app_over

/-- What was ruled stays, whatever the request meets afterwards. -/
theorem Ruled.resume {ruling : Ruling} (h : Ruled (some ruling) hits self) {limiter : Limiter} {answer : Answer}
    (hexpects : self.task.phase.expects answer) {next : Frame} (hresume : self.resume limiter answer = some next) :
    Ruled (some ruling) hits next := by
  have hshows := h.shows
  generalize hphase : self.task.phase = phase at hshows
  rw [hphase] at hexpects
  cases hshows with
  | unlimited_app =>
    cases answer <;> simp only [Frame.resume, Frame.handle, hphase, Option.some.injEq, reduceCtorEq] at hresume
    · exact hresume ▸ h.finish .app_over
    · exact hresume ▸ h.finish .app_over
  | limited_app =>
    cases answer <;> simp only [Frame.resume, Frame.handle, hphase, Option.some.injEq, reduceCtorEq] at hresume
    · exact hresume ▸ h.leave_limited_app _ _
    · exact hresume ▸ h.leave_limited_app _ _
  | app_over =>
    cases answer <;> simp [Frame.resume, Frame.handle, hphase] at hresume
  | @responding response context =>
    cases answer with
    | returned =>
      cases context <;> simp only [Frame.resume, hphase, Option.some.injEq] at hresume
      · exact hresume ▸ h.finish .responded
      · exact hresume ▸ h.finish .responded
      · exact hresume ▸ h.exit_response.finish .responded
    | raised failure => cases hexpects
    | _ => cases context <;> simp [Frame.resume, hphase] at hresume
  | responded =>
    cases answer <;> simp [Frame.resume, Frame.handle, hphase] at hresume
  | cancelling =>
    cases answer with
    | returned =>
      simp only [Frame.resume, hphase, Option.some.injEq] at hresume
      exact hresume ▸ h.exit_response.finish .dropped
    | raised failure =>
      obtain rfl : failure = .cancelled_error := by simpa [Phase.expects] using hexpects
      simp only [Frame.resume, Frame.handle, hphase, Option.some.injEq] at hresume
      exact hresume ▸ h.exit_response.finish .dropped
    | _ => simp [Frame.resume, hphase] at hresume
  | dropped =>
    cases answer <;> simp [Frame.resume, Frame.handle, hphase] at hresume

theorem Ruled.execute {ruling : Ruling} (h : Ruled (some ruling) hits self) {moments : List Moment} {final : Frame}
    (hrun : execute advance self moments = some final) : Ruled (some ruling) hits final := by
  refine execute_invariant advance h (fun frame moment next hruled hadvance => ?_) hrun
  unfold advance at hadvance
  split at hadvance
  · next hexpects => exact (hruled.at_coordinator moment.coordinator).resume hexpects hadvance
  · cases hadvance

theorem Fresh.complete_delay (h : Fresh hits self) (decision : PolicyDecision) (route_limit : Option ℤ) :
    Ruled (some (delay_end self.coordinator)) hits (self.complete_delay decision route_limit) := by
  unfold Frame.complete_delay delay_end
  split
  · exact h.leave_aborted_delay
  split
  · exact h.respond build_shutdown_response .policy_delay
  · exact h.exit_response.dispatch (some decision) route_limit

/-- The delay, by induction on what its timer is polled for. -/
theorem Fresh.poll_delay (h : Fresh hits self) {decision : PolicyDecision} {route_limit : Option ℤ}
    {moments : List Moment} {final : Frame}
    (hrun : execute advance (self.poll_delay decision route_limit) moments = some final) :
    Ruled (delay_ruling self.coordinator moments) hits final := by
  induction moments generalizing self with
  | nil =>
    cases hrun
    unfold Frame.poll_delay delay_ruling
    split
    · exact h.cancel_delay
    · exact h.await rfl
  | cons moment later ih =>
    unfold Frame.poll_delay at hrun
    unfold delay_ruling
    split at hrun
    · next habort =>
      rw [if_pos habort]
      exact h.cancel_delay.execute hrun
    · next hbegin =>
      rw [if_neg hbegin]
      obtain ⟨next, hexpects, hresume, hlater⟩ := execute_advance_cons hrun
      obtain ⟨limiter, coordinator, answer⟩ := moment
      have hwaiting : Fresh hits { self.await (.delaying decision route_limit) with coordinator } :=
        ⟨h.invocations, h.responses, h.hits⟩
      cases answer with
      | timer done =>
        cases done with
        | false =>
          cases hresume
          exact ih hwaiting hlater
        | true =>
          cases hresume
          exact (hwaiting.complete_delay decision route_limit).execute hlater
      | raised failure => cases hexpects
      | _ => cases hresume

theorem Fresh.decide (h : Fresh hits self) {decision : PolicyDecision} {route_limit : Option ℤ}
    {moments : List Moment} {final : Frame}
    (hrun : execute advance (self.decide decision route_limit) moments = some final) :
    Ruled (decision_ruling decision ⟨self.coordinator, moments⟩) hits final := by
  unfold Frame.decide at hrun
  unfold decision_ruling
  split at hrun
  · next hreject =>
    rw [if_pos hreject]
    exact (h.respond (build_reject_response decision) .plain).execute hrun
  next hreject =>
  rw [if_neg hreject]
  split at hrun
  · next hdelay =>
    rw [if_pos hdelay, ← delay_ruling_enter_response]
    exact h.enter_response.poll_delay hrun
  · next hdelay =>
    rw [if_neg hdelay]
    exact (h.dispatch (some decision) route_limit).execute hrun

/-- The evaluation over the moments that come, by induction on the rules that
    remain: each moment brings the hit of the next rule or ends it. -/
theorem Fresh.evaluate (h : Fresh hits self) {scope_identifiers : OrderedDict String String} {handler_name : String}
    {remaining : List (Rule × Nat)} {matched_actions : List CandidateAction}
    (hidentified : ∀ numbered ∈ remaining, scope_identifiers.get? numbered.1.scope ≠ none)
    {route_limit : Option ℤ} {moments : List Moment} {final : Frame}
    (hrun : execute advance
      (self.evaluate ⟨scope_identifiers, handler_name, remaining, matched_actions⟩ route_limit) moments =
        some final) :
    Ruled (evaluation_ruling (evaluate_rules Course.record_hit scope_identifiers handler_name remaining
        matched_actions ⟨self.coordinator, moments⟩))
      (hits ++ (requests scope_identifiers handler_name remaining).take (returned_hits moments + 1)) final := by
  induction remaining generalizing self hits matched_actions moments with
  | nil =>
    rw [requests, List.map_nil, List.take_nil, List.append_nil, evaluate_rules]
    unfold Frame.evaluate at hrun
    simp only [Evaluation.next] at hrun
    cases hselected : select_rule_action matched_actions with
    | none =>
      rw [hselected] at hrun
      exact (h.dispatch none route_limit).execute hrun
    | some matched =>
      rw [hselected] at hrun
      exact h.decide hrun
  | cons numbered rest ih =>
    obtain ⟨rule, index⟩ := numbered
    obtain ⟨hrule, hrest⟩ := List.forall_mem_cons.mp hidentified
    obtain ⟨request_key, hkey⟩ := Option.ne_none_iff_exists'.mp hrule
    simp only [Frame.evaluate, Evaluation.next, hkey] at hrun
    have hrequested := h.request_hit request_key handler_name index
    simp only [requests, List.map_cons, hkey, List.take_succ_cons, evaluate_rules, policy.record_hit]
    rw [List.append_cons]
    cases moments with
    | nil =>
      cases hrun
      have hpending : (Phase.evaluating ⟨scope_identifiers, handler_name, (rule, index) :: rest, matched_actions⟩
        route_limit).pending := rfl
      simpa [Course.record_hit, evaluation_ruling, returned_hits] using hrequested.await hpending
    | cons moment later =>
      obtain ⟨next, hexpects, hresume, hlater⟩ := execute_advance_cons hrun
      obtain ⟨limiter, coordinator, answer⟩ := moment
      cases answer with
      | hit result =>
        cases hresume
        have hcounted : Fresh (hits ++ [(some request_key, handler_name, index)])
            ⟨coordinator, ((self.note (.hit_requested request_key handler_name index)).await
              (.evaluating ⟨scope_identifiers, handler_name, (rule, index) :: rest, matched_actions⟩
                route_limit)).task⟩ := ⟨hrequested.invocations, hrequested.responses, hrequested.hits⟩
        exact ih hcounted hrest hlater
      | raised failure =>
        obtain rfl : failure = .storage_unavailable_error := by simpa [Phase.expects, Frame.await] using hexpects
        cases hresume
        have hfailed : Fresh (hits ++ [(some request_key, handler_name, index)])
            { self.note (.hit_requested request_key handler_name index) with coordinator } :=
          hrequested.at_coordinator coordinator
        simpa [Course.record_hit, evaluation_ruling, returned_hits] using
          (hfailed.respond build_backend_unavailable_response .plain).execute hlater
      | _ => cases hresume

/-- `proceed` in the terms of the gate. -/
theorem proceed_eq (hresolves : self.task.request.Resolves) {limiter : Limiter} {ip_allowed : Bool}
    {moments : List Moment} {gate : Gate} (hgate : gate = ⟨limiter, self.coordinator, ip_allowed, moments⟩) :
    self.proceed limiter ip_allowed =
      if gate.closed self.task.request then self.respond build_shutdown_response .plain
      else
        match gate.scope_identifiers self.task.request with
        | .error _ => self.respond build_backend_unavailable_response .plain
        | .ok scope_identifiers =>
          if (gate.rules self.task.request).isEmpty || gate.ip_allowed then
            self.dispatch none (gate.route_limit self.task.request)
          else
            self.evaluate (.start scope_identifiers (gate.policy_handler_name self.task.request)
              (gate.rules self.task.request)) (gate.route_limit self.task.request) := by
  subst hgate
  unfold Frame.proceed Gate.closed Gate.scope_identifiers Gate.policy_handler_name Gate.rules Gate.route_limit
  cases hnames : self.task.request.handler_names limiter with
  | nil => simp [Limiter.select_policy_rules, Limiter.select_route_limit, Frame.dispatch]
  | cons first rest =>
    simp only
    generalize hselected : limiter.select_policy_rules (first :: rest) = selected
    obtain ⟨policy_handler_name, rules⟩ := selected
    simp only
    split
    · rfl
    cases rules with
    | nil => rfl
    | cons rule others =>
      have hrules : (limiter.select_policy_rules (first :: rest)).2 ≠ [] := by simp [hselected]
      obtain ⟨name, hname⟩ := Limiter.exists_of_select_policy_rules hrules
      obtain rfl : policy_handler_name = some name := by rw [← hname, hselected]
      simp only [List.isEmpty_cons, Bool.false_eq_true, if_false, Bool.false_or, Option.getD_some]
      cases hscopes : self.task.request.scope_identifiers limiter (rule :: others) with
      | error failure =>
        cases hresolves.failure _ _ _ hscopes
        rfl
      | ok scope_identifiers => rfl

/-- The request from its gate on. -/
theorem Fresh.proceed (h : Fresh [] self) (hresolves : self.task.request.Resolves) {limiter : Limiter}
    {ip_allowed : Bool} {moments : List Moment} {final : Frame}
    (hrun : execute advance (self.proceed limiter ip_allowed) moments = some final) {gate : Gate}
    (hgate : gate = ⟨limiter, self.coordinator, ip_allowed, moments⟩) :
    Ruled (gate.ruling self.task.request)
      ((gate.due_hits self.task.request).take (returned_hits moments + 1)) final := by
  rw [proceed_eq hresolves hgate] at hrun
  unfold Gate.ruling
  split at hrun
  · next hclosed =>
    have hcounting : gate.counting self.task.request = none := by simp [Gate.counting, hclosed]
    rw [if_pos hclosed, Gate.due_hits_of_counting_none hcounting, List.take_nil]
    exact (h.respond build_shutdown_response .plain).execute hrun
  next hopened =>
  rw [if_neg hopened]
  cases hscopes : gate.scope_identifiers self.task.request with
  | error failure =>
    have hcounting : gate.counting self.task.request = none := by simp [Gate.counting, hscopes, Except.toOption]
    rw [Gate.due_hits_of_counting_none hcounting, List.take_nil]
    simp only [hscopes] at hrun
    exact (h.respond build_backend_unavailable_response .plain).execute hrun
  | ok scope_identifiers =>
    simp only [hscopes] at hrun
    split at hrun
    · next huncounted =>
      have hcounting : gate.counting self.task.request = none := by
        rw [Gate.counting, Bool.or_assoc, huncounted, Bool.or_true]
        rfl
      simp only [if_pos huncounted]
      rw [Gate.due_hits_of_counting_none hcounting, List.take_nil]
      exact (h.dispatch none (gate.route_limit self.task.request)).execute hrun
    · next hcounted =>
      rw [Bool.not_eq_true, Bool.or_eq_false_iff] at hcounted
      have hcounting : gate.counting self.task.request = some scope_identifiers :=
        Gate.counting_eq_some_iff.mpr ⟨Bool.eq_false_iff.mpr hopened, hcounted.1, hcounted.2, hscopes⟩
      have hidentified : ∀ numbered ∈ (gate.rules self.task.request).zipIdx,
          scope_identifiers.get? numbered.1.scope ≠ none := by
        rintro ⟨rule, index⟩ hmem
        rw [Gate.scope_identifiers, hcounted.1] at hscopes
        exact hresolves.identified _ _ _ hscopes rule (List.fst_mem_of_mem_zipIdx hmem)
      simp only [hcounted, Bool.or_false, Bool.false_eq_true, if_false]
      rw [Gate.due_hits_of_counting hcounting]
      subst hgate
      exact h.evaluate hidentified hrun

/-- The second lookup and what follows it. -/
theorem checking_allowed_ruled {request : Request} (hresolves : request.Resolves) {client_ip : String}
    (hclient : request.client_ip = some client_ip) {limiter found_limiter : Limiter}
    {coordinator found_coordinator : ShutdownCoordinator} {later : List Moment} {final : Frame}
    (hrun : execute advance ⟨found_coordinator, ⟨request, request.extensions, .checking_allowed, []⟩⟩ later =
      some final) :
    Ruled (ruling request limiter coordinator (⟨found_limiter, found_coordinator, .found false⟩ :: later))
      (requested_hits request limiter coordinator (⟨found_limiter, found_coordinator, .found false⟩ :: later))
      final := by
  have hfresh (coordinator : ShutdownCoordinator) :
      Fresh [] ⟨coordinator, ⟨request, request.extensions, .checking_allowed, []⟩⟩ := ⟨rfl, rfl, rfl⟩
  cases later with
  | nil =>
    cases hrun
    simp only [ruling, requested_hits, reach_gate, hclient]
    exact (hfresh found_coordinator).await rfl
  | cons moment rest =>
    obtain ⟨next, hexpects, hresume, hrest⟩ := execute_advance_cons hrun
    obtain ⟨gate_limiter, gate_coordinator, answer⟩ := moment
    cases answer with
    | found ip_allowed =>
      cases hresume
      simp only [ruling, requested_hits, reach_gate, hclient]
      exact (hfresh gate_coordinator).proceed hresolves hrest rfl
    | raised failure =>
      obtain rfl : failure = .storage_unavailable_error := by simpa [Phase.expects] using hexpects
      cases hresume
      simp only [ruling, requested_hits, reach_gate, hclient]
      exact ((hfresh gate_coordinator).respond build_backend_unavailable_response .plain).execute hrest
    | _ => cases hresume

/-- A request over its moments: its lookups first, then the gate. -/
theorem start_ruled {request : Request} (hresolves : request.Resolves) {limiter : Limiter}
    {coordinator : ShutdownCoordinator} {moments : List Moment} {final : Frame}
    (hrun : execute advance (start limiter coordinator request) moments = some final) :
    Ruled (ruling request limiter coordinator moments)
      (requested_hits request limiter coordinator moments) final := by
  have hfresh (coordinator : ShutdownCoordinator) (phase : Phase) :
      Fresh [] ⟨coordinator, ⟨request, request.extensions, phase, []⟩⟩ := ⟨rfl, rfl, rfl⟩
  unfold start at hrun
  cases hclient : request.client_ip with
  | none =>
    have hgate : reach_gate request limiter coordinator moments = some ⟨limiter, coordinator, false, moments⟩ := by
      simp [reach_gate, hclient]
    rw [ruling_of_gate hgate, requested_hits, hgate]
    simp only [hclient, Option.isSome_none, Bool.false_eq_true, if_false] at hrun
    exact (hfresh coordinator .checking_blocked).proceed hresolves hrun rfl
  | some client_ip =>
    simp only [hclient, Option.isSome_some, if_true] at hrun
    cases moments with
    | nil =>
      cases hrun
      simp only [ruling, requested_hits, reach_gate, hclient]
      exact (hfresh coordinator .checking_blocked).await rfl
    | cons moment later =>
      obtain ⟨next, hexpects, hresume, hlater⟩ := execute_advance_cons hrun
      obtain ⟨found_limiter, found_coordinator, answer⟩ := moment
      have hchecking := hfresh found_coordinator .checking_blocked
      cases answer with
      | found blocked =>
        cases blocked with
        | true =>
          cases hresume
          simp only [ruling, requested_hits, reach_gate, hclient]
          exact (hchecking.respond build_blocked_ip_response .ip_check).execute hlater
        | false =>
          cases hresume
          exact checking_allowed_ruled hresolves hclient hlater
      | raised failure =>
        obtain rfl : failure = .storage_unavailable_error := by simpa [Phase.expects] using hexpects
        cases hresume
        simp only [ruling, requested_hits, reach_gate, hclient]
        exact (hchecking.respond build_backend_unavailable_response .plain).execute hlater
      | _ => cases hresume

end Steps

end Frame

/-- The request gate admits exactly whom it should. Whatever the storage answers,
    and whatever the configuration and the coordinator are when it does, a request
    that is not cancelled invokes the application at most once, and exactly if it
    is admitted: not blocked, not shut out at the gate, with its scopes resolved and
    its hits counted, and neither rejected nor stopped in its delay. Otherwise it
    ends with one response, or with none if an abort ended its delay. Its
    `record_hit` calls are those that are due, up to one that fails. -/
theorem admits_exactly {Address : Type} (arrival : Arrival Address) (limiter : Limiter)
    (coordinator : ShutdownCoordinator) {moments : List Moment} {final : Frame}
    (hrun : execute Frame.advance (.start limiter coordinator arrival.request) moments = some final) :
    final.task.invocations ≤ 1 ∧
    (final.task.invocations = 1 ↔ Admitted arrival.request limiter coordinator moments) ∧
    final.task.hits = requested_hits arrival.request limiter coordinator moments ∧
    ∀ outcome, final.task.phase = .finished outcome →
      (Admitted arrival.request limiter coordinator moments → final.task.responses = []) ∧
      (¬ Admitted arrival.request limiter coordinator moments → outcome = .returned ∧
        ((∃ response, final.task.responses = [response] ∧
            (response.status_code = 403 ∨ response.status_code = 503 ∨
              ∃ decision, Rejected arrival.request limiter coordinator moments decision ∧
                response.status_code = decision.reject_status)) ∨
          (final.task.responses = [] ∧ DelayAborted arrival.request limiter coordinator moments))) := by
  have hruled := Frame.start_ruled arrival.request_resolves hrun
  have hshows := hruled.shows
  have hinvocations := hruled.invocations
  have hresponses := hruled.responses
  rw [← ruling_pass_iff]
  refine ⟨?_, ?_, hruled.hits, fun outcome hphase => ⟨fun hpass => ?_, fun hrefused => ?_⟩⟩
  · rw [hinvocations]
    split <;> omega
  · rw [hinvocations]
    split <;> simp_all
  · rw [hresponses, hpass]
    rfl
  · generalize hruling : ruling arrival.request limiter coordinator moments = ruled at *
    rw [hphase] at hshows
    cases hshows with
    | pending hpending => cases hpending
    | app_over => exact absurd rfl hrefused
    | responded => exact ⟨rfl, Or.inl ⟨_, hresponses, ruling_refuse hruling⟩⟩
    | dropped => exact ⟨rfl, Or.inr ⟨hresponses, ruling_drop_iff.mp hruling⟩⟩

/-- A visitor at a documentation address, behind a proxy that is not trusted. -/
def visitor : Arrival DocumentationAddress where
  ips := .documentation
  http := ⟨some "2001:db8::1", none, some "192.0.2.1", fun _ => .raised⟩
  trusted_proxy_headers := false
  handler_names _ := ["visit"]
  extensions := none

def visit_limiter : Limiter := ⟨.empty, OrderedDict.empty.set "visit" [.one_per_minute], []⟩

/-- The second hit of a minute. -/
def second_hit : SlidingWindowResult where
  hit_count := 2
  oldest_timestamp := some 0
  current_timestamp := 1
  retry_after_timestamp := none

/-- Two lookups, the second hit of the minute, and the response taken. -/
def second_visit : List Moment :=
  [.found false, .found false, .hit second_hit, .returned].map (⟨visit_limiter, .init, ·⟩)

theorem second_visit_rejected :
    ∃ final : Frame, execute Frame.advance (.start visit_limiter .init visitor.request) second_visit = some final ∧
      final.task.responses = [build_reject_response (Reject.default.action.decide 59)] ∧
      final.task.hits = requested_hits visitor.request visit_limiter .init second_visit ∧
      ¬ Admitted visitor.request visit_limiter .init second_visit := by
  have hrun : execute Frame.advance (.start visit_limiter .init visitor.request) second_visit = some _ := rfl
  have hexact := admits_exactly visitor visit_limiter .init hrun
  exact ⟨_, hrun, by decide +kernel, hexact.2.2.1,
    fun hadmitted => absurd (hexact.2.1.mpr hadmitted) (by decide +kernel)⟩

end response_bandwidth_limiter.middleware

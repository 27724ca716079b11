import ResponseBandwidthLimiter.Configuration
import ResponseBandwidthLimiter.Middleware.RateLimit

open collections
open response_bandwidth_limiter.base response_bandwidth_limiter.models response_bandwidth_limiter.policy
open response_bandwidth_limiter.limiter response_bandwidth_limiter.shutdown

namespace response_bandwidth_limiter.models

/-- The actions that the package defines. -/
inductive Action.Builtin : Action → Prop
  | throttle (self : Throttle) : Builtin self.action
  | reject (self : Reject) : Builtin self.action
  | delay (self : Delay) : Builtin self.action

variable {action : Action} {retry_after : ℤ}

theorem Action.Builtin.throttles (h : action.Builtin) {rate : ℤ}
    (hrate : (action.decide retry_after).throttle_rate = some rate) :
    ∃ throttle, action = Throttle.action throttle ∧ rate = throttle.bytes_per_sec := by
  cases h with
  | throttle self => exact ⟨self, rfl, (Option.some.inj hrate).symm⟩
  | reject self => cases hrate
  | delay self => cases hrate

theorem Action.Builtin.rejects (h : action.Builtin) (hreject : (action.decide retry_after).reject) :
    ∃ reject, action = Reject.action reject := by
  cases h with
  | throttle self => cases hreject
  | reject self => exact ⟨self, rfl⟩
  | delay self => cases hreject

theorem Action.Builtin.delays (h : action.Builtin) (hdelay : 0 < (action.decide retry_after).pre_delay) :
    ∃ delay, action = Delay.action delay := by
  cases h with
  | throttle self => exact absurd hdelay (lt_irrefl 0)
  | reject self => exact absurd hdelay (lt_irrefl 0)
  | delay self => exact ⟨self, rfl⟩

end response_bandwidth_limiter.models

namespace response_bandwidth_limiter.middleware

variable {request : Request} {limiter : Limiter}

/-- A decision for a rule that a configuration selects for the request. -/
def Request.Decides (request : Request) (limiter : Limiter) (decision : PolicyDecision) : Prop :=
  ∃ rule ∈ (limiter.select_policy_rules (request.handler_names limiter)).2, ∃ retry_after, 1 ≤ retry_after ∧
    decision = rule.action.decide retry_after

/-- What a request does as a configuration has it: the answer of one of its
    rules or a fixed one, the counters of its rules, and its limit for the body
    or that of a rule. -/
def Event.Obeys (request : Request) (limiter : Limiter) : Event → Prop
  | .responding response =>
    response ∈ [build_blocked_ip_response, build_shutdown_response, build_backend_unavailable_response] ∨
      ∃ decision, request.Decides limiter decision ∧ decision.reject ∧ response = build_reject_response decision
  | .hit_requested request_key handler_name rule_index =>
    let selected := limiter.select_policy_rules (request.handler_names limiter)
    selected.1 = some handler_name ∧ ∃ rule scope_identifiers, selected.2[rule_index]? = some rule ∧
      request.scope_identifiers limiter selected.2 = .ok scope_identifiers ∧
      scope_identifiers.get? rule.scope = some request_key
  | .app_invoked max_rate _ =>
    ∃ decision : Option PolicyDecision,
      (∀ taken ∈ decision, request.Decides limiter taken ∧ taken.reject = false) ∧
      max_rate = (decision.bind PolicyDecision.throttle_rate).or
        (limiter.select_route_limit (request.handler_names limiter))
  | .entered => True
  | .exited _ => True

/-- An evaluation of the rules that a configuration selects for the request. -/
structure Request.Evaluates (request : Request) (limiter : Limiter) (evaluation : Evaluation) : Prop where
  handler : (limiter.select_policy_rules (request.handler_names limiter)).1 = some evaluation.handler_name
  compares : evaluation.Compares (limiter.select_policy_rules (request.handler_names limiter)).2
  identifiers : request.scope_identifiers limiter (limiter.select_policy_rules (request.handler_names limiter)).2 =
    .ok evaluation.scope_identifiers
  waits : ∀ candidate ∈ evaluation.matched_actions, 1 ≤ candidate.retry_after

/-- What an await keeps of the configuration for later. -/
def Phase.Obeys (request : Request) (limiter : Limiter) : Phase → Prop
  | .checking_blocked => False
  | .checking_allowed => False
  | .evaluating evaluation route_limit =>
    request.Evaluates limiter evaluation ∧ route_limit = limiter.select_route_limit (request.handler_names limiter)
  | .delaying decision route_limit =>
    (request.Decides limiter decision ∧ decision.reject = false ∧ 0 < decision.pre_delay) ∧
      route_limit = limiter.select_route_limit (request.handler_names limiter)
  | _ => True

/-- A request that has taken everything from one configuration. -/
structure Task.Obeys (limiter : Limiter) (task : Task) : Prop where
  events : ∀ event ∈ task.log, event.Obeys task.request limiter
  phase : task.phase.Obeys task.request limiter

/-- A request that has not read the configuration yet. -/
structure Task.Unread (task : Task) : Prop where
  log : task.log = []
  phase : task.phase = .checking_blocked ∨ task.phase = .checking_allowed

theorem Request.Evaluates.resume {evaluation : Evaluation} (h : request.Evaluates limiter evaluation)
    (hit_result : SlidingWindowResult) : request.Evaluates limiter (evaluation.resume hit_result) := by
  have hidentifiers : (evaluation.resume hit_result).scope_identifiers = evaluation.scope_identifiers := by
    unfold Evaluation.resume
    split <;> rfl
  refine ⟨?_, h.compares.resume hit_result, hidentifiers ▸ h.identifiers, ?_⟩
  · rw [Evaluation.resume_handler_name]
    exact h.handler
  · unfold Evaluation.resume
    split
    · exact h.waits
    · intro candidate hcandidate
      simp only [count_rule] at hcandidate
      split at hcandidate
      · rcases List.mem_append.mp hcandidate with hbefore | hnew
        · exact h.waits candidate hbefore
        · rw [List.mem_singleton.mp hnew]
          unfold retry_after_seconds
          split
          · exact le_refl 1
          · exact le_max_left _ _
      · exact h.waits candidate hcandidate

namespace Frame

variable {self : Frame}

/-- All that the request did is explained by a configuration. -/
def Noted (limiter : Limiter) (self : Frame) : Prop :=
  ∀ event ∈ self.task.log, event.Obeys self.task.request limiter

theorem Noted.note (h : self.Noted limiter) {event : Event} (hevent : event.Obeys self.task.request limiter) :
    (self.note event).Noted limiter := by
  intro other hother
  rcases List.mem_append.mp hother with hbefore | hnew
  · exact h other hbefore
  · rw [List.mem_singleton.mp hnew]
    exact hevent

theorem Noted.await (h : self.Noted limiter) {phase : Phase} (hphase : phase.Obeys self.task.request limiter) :
    (self.await phase).task.Obeys limiter := ⟨h, hphase⟩

theorem Noted.finish (h : self.Noted limiter) (outcome : Outcome) : (self.finish outcome).task.Obeys limiter :=
  h.await trivial

theorem Noted.respond (h : self.Noted limiter) {response : Response} (context : Context)
    (hresponse : (Event.responding response).Obeys self.task.request limiter) :
    (self.respond response context).task.Obeys limiter := (h.note hresponse).await trivial

theorem Noted.enter_response (h : self.Noted limiter) : self.enter_response.Noted limiter := by
  have hcounted : Frame.Noted limiter { self with coordinator := self.coordinator.enter_response } := h
  exact hcounted.note trivial

theorem Noted.exit_response (h : self.Noted limiter) : self.exit_response.Noted limiter := by
  have hcounted : Frame.Noted limiter { self with coordinator := self.coordinator.exit_response } := h
  exact hcounted.note trivial

theorem Noted.leave_limited_app (h : self.Noted limiter) (original_extensions : Option Extensions)
    (outcome : Outcome) : (self.leave_limited_app original_extensions outcome).task.Obeys limiter := by
  unfold Frame.leave_limited_app
  simp only
  split
  · have hbound : (self.bind_extensions original_extensions).Noted limiter := h
    exact hbound.exit_response.finish outcome
  · exact h.exit_response.finish outcome

theorem Noted.leave_delay (h : self.Noted limiter) (failure : Failure) :
    (self.leave_delay failure).task.Obeys limiter := by
  unfold Frame.leave_delay
  split
  · exact h.exit_response.finish _
  · exact h.exit_response.finish _

theorem Noted.fail_closed (h : self.Noted limiter) (failure : Failure) :
    (self.fail_closed failure).task.Obeys limiter := by
  unfold Frame.fail_closed
  split
  · exact h.respond _ (Or.inl (by simp))
  · exact h.finish _

/-- The application is called with the limit of the configuration, or that of
    the decision. -/
theorem Noted.dispatch (h : self.Noted limiter) {decision : Option PolicyDecision} {route_limit : Option ℤ}
    (hdecision : ∀ taken ∈ decision, self.task.request.Decides limiter taken ∧ taken.reject = false)
    (hlimit : route_limit = limiter.select_route_limit (self.task.request.handler_names limiter)) :
    (self.dispatch decision route_limit).task.Obeys limiter := by
  have hinvoked : ∀ seen,
      (Event.app_invoked ((decision.bind PolicyDecision.throttle_rate).or route_limit) seen).Obeys
      self.task.request limiter := fun _ => ⟨decision, hdecision, by rw [hlimit]⟩
  unfold Frame.dispatch
  split
  · next hrate =>
    rw [hrate] at hinvoked
    exact (h.note (hinvoked _)).await trivial
  · next max_rate hrate =>
    rw [hrate] at hinvoked
    unfold Frame.call_limited_app
    simp only
    split
    · have hbound : (self.enter_response.bind_extensions
          (self.enter_response.task.extensions.map Extensions.paced)).Noted limiter := h.enter_response
      exact (hbound.note (hinvoked _)).await trivial
    · exact (h.enter_response.note (hinvoked _)).await trivial

theorem Noted.poll_delay (h : self.Noted limiter) {decision : PolicyDecision} {route_limit : Option ℤ}
    (hphase : (Phase.delaying decision route_limit).Obeys self.task.request limiter) :
    (self.poll_delay decision route_limit).task.Obeys limiter := by
  unfold Frame.poll_delay
  split
  · exact h.await trivial
  · exact h.await hphase

theorem Noted.complete_delay (h : self.Noted limiter) {decision : PolicyDecision} {route_limit : Option ℤ}
    (hphase : (Phase.delaying decision route_limit).Obeys self.task.request limiter) :
    (self.complete_delay decision route_limit).task.Obeys limiter := by
  unfold Frame.complete_delay
  split
  · exact h.leave_delay _
  split
  · exact h.respond _ (Or.inl (by simp))
  · refine h.exit_response.dispatch (fun taken htaken => ?_) hphase.2
    cases htaken
    exact ⟨hphase.1.1, hphase.1.2.1⟩

theorem Noted.decide (h : self.Noted limiter) {decision : PolicyDecision} {route_limit : Option ℤ}
    (hdecision : self.task.request.Decides limiter decision)
    (hlimit : route_limit = limiter.select_route_limit (self.task.request.handler_names limiter)) :
    (self.decide decision route_limit).task.Obeys limiter := by
  unfold Frame.decide
  split
  · next hreject => exact h.respond _ (Or.inr ⟨decision, hdecision, hreject, rfl⟩)
  · next haccept =>
    have haccepted : decision.reject = false := by simpa using haccept
    split
    · next hdelay => exact h.enter_response.poll_delay ⟨⟨hdecision, haccepted, hdelay⟩, hlimit⟩
    · refine h.dispatch (fun taken htaken => ?_) hlimit
      cases htaken
      exact ⟨hdecision, haccepted⟩

/-- An evaluation counts for the rules of its configuration, and decides for one
    of them. -/
theorem Noted.evaluate (h : self.Noted limiter) {evaluation : Evaluation} {route_limit : Option ℤ}
    (hevaluates : self.task.request.Evaluates limiter evaluation)
    (hlimit : route_limit = limiter.select_route_limit (self.task.request.handler_names limiter)) :
    (self.evaluate evaluation route_limit).task.Obeys limiter := by
  unfold Frame.evaluate
  cases hnext : evaluation.next with
  | finish selected =>
    cases selected with
    | none => exact h.dispatch (fun _ htaken => absurd htaken (Option.not_mem_none _)) hlimit
    | some matched =>
      unfold Evaluation.next at hnext
      split at hnext
      · obtain ⟨candidate, hcandidate, hmatched, -⟩ :=
          exists_of_select_rule_action (EvaluationAction.finish.inj hnext)
        subst hmatched
        exact h.decide ⟨candidate.rule, hevaluates.compares.matched candidate hcandidate, candidate.retry_after,
          hevaluates.waits candidate hcandidate, rfl⟩ hlimit
      · split at hnext <;> cases hnext
  | fail error => exact h.finish _
  | record_hit request_key rule_index rule =>
    have hidentifier : evaluation.scope_identifiers.get? rule.scope = some request_key := by
      unfold Evaluation.next at hnext
      split at hnext
      · cases hnext
      · split at hnext
        · cases hnext
        · next hkey =>
          cases hnext
          exact hkey
    have hrequested : (Event.hit_requested request_key evaluation.handler_name rule_index).Obeys self.task.request
        limiter := ⟨hevaluates.handler, rule, evaluation.scope_identifiers, hevaluates.compares.next_rule hnext,
          hevaluates.identifiers, hidentifier⟩
    exact (h.note hrequested).await ⟨hevaluates, hlimit⟩

/-- Everything after the IP checks is taken from the configuration they end in. -/
theorem Noted.proceed (h : self.Noted limiter) (ip_allowed : Bool) :
    (self.proceed limiter ip_allowed).task.Obeys limiter := by
  unfold Frame.proceed
  split
  · next hnames =>
    have hinvoked : (Event.app_invoked none self.task.extensions).Obeys self.task.request limiter :=
      ⟨none, fun _ htaken => absurd htaken (Option.not_mem_none _), by rw [hnames]; rfl⟩
    exact (h.note hinvoked).await trivial
  · next first rest hnames =>
    cases hselected : limiter.select_policy_rules (first :: rest) with
    | mk policy_handler_name rules =>
      have hlimit : limiter.select_route_limit (first :: rest) =
          limiter.select_route_limit (self.task.request.handler_names limiter) := by rw [hnames]
      have hdispatch : (self.dispatch none (limiter.select_route_limit (first :: rest))).task.Obeys limiter :=
        h.dispatch (fun _ htaken => absurd htaken (Option.not_mem_none _)) hlimit
      simp only
      split
      · exact h.respond _ (Or.inl (by simp))
      split
      · exact hdispatch
      split
      · exact h.respond _ (Or.inl (by simp))
      · exact h.finish _
      split
      · exact hdispatch
      · next hrules _ scope_identifiers hresolved _ =>
        have hne : (limiter.select_policy_rules (first :: rest)).2 ≠ [] := by
          rw [hselected]
          simpa using hrules
        obtain ⟨name, hname⟩ := Limiter.exists_of_select_policy_rules hne
        rw [hselected] at hname
        cases hname
        refine h.evaluate ⟨?_, ?_, ?_, fun _ hcandidate => absurd hcandidate List.not_mem_nil⟩ hlimit
        · rw [hnames, hselected]
          rfl
        · rw [hnames, hselected]
          exact Evaluation.compares_start scope_identifiers name rules
        · rw [hnames, hselected]
          exact hresolved

theorem handle_obeys (h : self.Noted limiter) {failure : Failure} {next : Frame}
    (hhandle : self.handle failure = some next) : next.task.Obeys limiter := by
  unfold Frame.handle at hhandle
  split at hhandle <;> cases hhandle
  · exact h.fail_closed failure
  · exact h.fail_closed failure
  · exact h.finish _
  · exact h.fail_closed failure
  · exact h.leave_delay failure
  · exact h.fail_closed failure
  · exact h.await trivial
  · exact h.leave_delay _
  · exact h.finish _
  · exact h.leave_limited_app _ _

/-- A request goes on with the configuration it has read, whichever one it finds. -/
theorem resume_obeys (h : self.task.Obeys limiter) {found : Limiter} {answer : Answer} {next : Frame}
    (hresume : self.resume found answer = some next) : next.task.Obeys limiter := by
  have hnoted : self.Noted limiter := h.events
  have hphase := h.phase
  unfold Frame.resume at hresume
  split at hresume
  case h_6 hbefore =>
    rw [hbefore] at hphase
    cases hresume
    exact hnoted.evaluate (hphase.1.resume _) hphase.2
  case h_7 hbefore =>
    rw [hbefore] at hphase
    cases hresume
    exact hnoted.complete_delay hphase
  case h_8 hbefore =>
    rw [hbefore] at hphase
    cases hresume
    exact hnoted.poll_delay hphase
  case h_12 => exact handle_obeys hnoted hresume
  case h_13 => cases hresume
  all_goals cases hresume
  · next hbefore => exact (hbefore ▸ hphase :).elim
  · next hbefore => exact (hbefore ▸ hphase :).elim
  · next hbefore => exact (hbefore ▸ hphase :).elim
  · exact hnoted.exit_response.finish _
  · exact hnoted.finish _
  · exact hnoted.leave_delay _
  · exact hnoted.finish _
  · exact hnoted.leave_limited_app _ _

/-- The configuration is read once, when the IP checks are over. -/
theorem resume_unread (h : self.task.Unread) {answer : Answer} {next : Frame}
    (hresume : self.resume limiter answer = some next) : next.task.Unread ∨ next.task.Obeys limiter := by
  have hnoted : self.Noted limiter := by
    intro event hevent
    rw [h.log] at hevent
    cases hevent
  rcases h.phase with hphase | hphase
  · cases answer with
    | found present =>
      simp only [Frame.resume, hphase] at hresume
      cases present with
      | true =>
        cases hresume
        exact Or.inr (hnoted.respond _ (Or.inl (by simp)))
      | false =>
        cases hresume
        exact Or.inl ⟨h.log, Or.inr rfl⟩
    | raised failure =>
      simp only [Frame.resume, Frame.handle, hphase, Option.some.injEq] at hresume
      exact Or.inr (hresume ▸ hnoted.fail_closed failure)
    | _ => simp [Frame.resume, hphase] at hresume
  · cases answer with
    | found present =>
      simp only [Frame.resume, hphase, Option.some.injEq] at hresume
      exact Or.inr (hresume ▸ hnoted.proceed present)
    | raised failure =>
      simp only [Frame.resume, Frame.handle, hphase, Option.some.injEq] at hresume
      exact Or.inr (hresume ▸ hnoted.fail_closed failure)
    | _ => simp [Frame.resume, hphase] at hresume

theorem start_reads (limiter : Limiter) (coordinator : ShutdownCoordinator) (request : Request) :
    (start limiter coordinator request).task.Unread ∨ (start limiter coordinator request).task.Obeys limiter := by
  unfold start
  split
  · exact Or.inl ⟨rfl, Or.inl rfl⟩
  · have hnoted : Frame.Noted limiter ⟨coordinator, ⟨request, request.extensions, .checking_blocked, []⟩⟩ :=
      fun _ hevent => absurd hevent List.not_mem_nil
    exact Or.inr (hnoted.proceed false)

end Frame

/-- What one step makes of a request: one that is new or unread reads this
    configuration or none, and one that has read keeps to what it read. -/
theorem World.step_obeys {world next : World} {label : Label} (hstep : world.step label = some next) {index : Nat}
    {task : Task} (htask : next.tasks[index]? = some task) :
    (∃ before, world.tasks[index]? = some before ∧ task.request = before.request ∧
      (before.Unread → task.Unread ∨ task.Obeys world.limiter) ∧
      ∀ limiter, before.Obeys limiter → task.Obeys limiter) ∨
    (index = world.tasks.length ∧ label = .arrive task.request ∧ (task.Unread ∨ task.Obeys world.limiter)) := by
  have hsame : world.tasks[index]? = some task → ∃ before, world.tasks[index]? = some before ∧
      task.request = before.request ∧ (before.Unread → task.Unread ∨ task.Obeys world.limiter) ∧
      ∀ limiter, before.Obeys limiter → task.Obeys limiter :=
    fun hbefore => ⟨task, hbefore, rfl, Or.inl, fun _ h => h⟩
  cases label with
  | arrive request =>
    cases hstep
    simp only at htask
    by_cases hindex : index < world.tasks.length
    · rw [List.getElem?_append_left hindex] at htask
      exact Or.inl (hsame htask)
    · rw [List.getElem?_append_right (by omega)] at htask
      obtain ⟨hlast, hnew⟩ := List.getElem?_eq_some_iff.mp htask
      simp only [List.length_singleton, List.getElem_singleton] at hlast hnew
      refine Or.inr ⟨by omega, ?_, ?_⟩
      · rw [← hnew, Frame.start_request]
      · rw [← hnew]
        exact Frame.start_reads world.limiter world.coordinator request
  | resume position answer =>
    obtain ⟨before, frame, hbefore, hframe, rfl⟩ := step_resume hstep
    rcases getElem?_set_cases hbefore htask with ⟨rfl, rfl⟩ | hother
    · refine Or.inl ⟨before, hbefore, Frame.resume_request hframe, fun hunread => ?_, fun limiter hobeys => ?_⟩
      · have hsuspended : (Frame.mk world.coordinator before).task.Unread := hunread
        exact Frame.resume_unread hsuspended hframe
      · have hsuspended : (Frame.mk world.coordinator before).task.Obeys limiter := hobeys
        exact Frame.resume_obeys hsuspended hframe
    · exact Or.inl (hsame hother)
  | rebind position extensions =>
    obtain ⟨before, hbefore, happ, rfl⟩ := step_rebind hstep
    rcases getElem?_set_cases hbefore htask with ⟨rfl, rfl⟩ | hother
    · refine Or.inl ⟨before, hbefore, rfl, fun hunread => Or.inl ⟨hunread.log, hunread.phase⟩, ?_⟩
      exact fun limiter hobeys => ⟨hobeys.events, hobeys.phase⟩
    · exact Or.inl (hsame hother)
  | begin_shutdown mode =>
    cases hstep
    exact Or.inl (hsame htask)
  | configure limiter =>
    cases hstep
    exact Or.inl (hsame htask)

/-- A step of an application with a limiter: a public call that configures the
    limiter, or a step of the middleware. The calls are made on the event loop, so
    that none of them falls between the reads of one step of the middleware. -/
inductive ApplicationLabel where
  | call (call : PublicCall)
  | take (label : Label)

namespace Application

/-- The step of the middleware that a label stands for. -/
def world_label (limiter : Limiter) : ApplicationLabel → Option Label
  | .call call => some (.configure (limiter.call call).2)
  | .take (.configure _) => none
  | .take label => some label

def step (world : World) (label : ApplicationLabel) : Option World :=
  (world_label world.limiter label).bind world.step

/-- A run of an application whose limiter is new. -/
def run (labels : List ApplicationLabel) : Option World := execute step (World.init Limiter.init) labels

/-- The configuration that a request reads: it is in force after an earlier part
    of the run, in which the request arrived or after which it arrives. -/
def Read (labels : List ApplicationLabel) (index : Nat) (request : Request) (limiter : Limiter) : Prop :=
  ∃ earlier later world, labels = earlier ++ later ∧ run earlier = some world ∧ world.limiter = limiter ∧
    (index < world.tasks.length ∨
      index = world.tasks.length ∧ ∃ rest, later = .take (.arrive request) :: rest)

theorem Read.concat {labels : List ApplicationLabel} {index : Nat} {request : Request} {limiter : Limiter}
    (h : Read labels index request limiter) (label : ApplicationLabel) :
    Read (labels ++ [label]) index request limiter := by
  obtain ⟨earlier, later, world, hsplit, hrun, hlimiter, hindex⟩ := h
  refine ⟨earlier, later ++ [label], world, by rw [hsplit, List.append_assoc], hrun, hlimiter, ?_⟩
  rcases hindex with harrived | ⟨hnext, rest, hlater⟩
  · exact Or.inl harrived
  · exact Or.inr ⟨hnext, rest ++ [label], by rw [hlater]; rfl⟩

theorem world_label_arrive {limiter : Limiter} {label : ApplicationLabel} {request : Request}
    (harrive : world_label limiter label = some (.arrive request)) : label = .take (.arrive request) := by
  unfold world_label at harrive
  split at harrive
  · cases harrive
  · cases harrive
  · cases harrive
    rfl

/-- The run lemma: a request has read nothing yet, or everything it did and
    keeps comes from one configuration. -/
theorem obeys_of_run {labels : List ApplicationLabel} {final : World} (hrun : run labels = some final) {index : Nat}
    {task : Task} (htask : final.tasks[index]? = some task) :
    task.Unread ∨ ∃ limiter, Read labels index task.request limiter ∧ task.Obeys limiter := by
  induction labels using List.reverseRecOn generalizing final index task with
  | nil =>
    cases hrun
    cases htask
  | append_singleton earlier label ih =>
    obtain ⟨world, hearlier, hstep⟩ := (execute_concat step).mp hrun
    obtain ⟨taken, htaken, hinner⟩ := Option.bind_eq_some_iff.mp hstep
    rcases World.step_obeys hinner htask with ⟨before, hbefore, hrequest, hreads, hkeeps⟩ | ⟨hindex, hlabel, hreads⟩
    · rcases ih hearlier hbefore with hunread | ⟨limiter, hread, hobeys⟩
      · refine (hreads hunread).imp_right fun hobeys => ⟨world.limiter, ?_, hobeys⟩
        exact ⟨earlier, [label], world, rfl, hearlier, rfl, Or.inl (List.getElem?_eq_some_iff.mp hbefore).1⟩
      · exact Or.inr ⟨limiter, hrequest ▸ hread.concat label, hkeeps limiter hobeys⟩
    · refine hreads.imp_right fun hobeys => ⟨world.limiter, ?_, hobeys⟩
      exact ⟨earlier, [label], world, rfl, hearlier, rfl, Or.inr ⟨hindex, [], by
        rw [hlabel] at htaken
        rw [world_label_arrive htaken]⟩⟩

/-- Every request obeys one configuration, although it is carried across awaits
    and the configuration may change in each of them: its answers, the
    counters it is counted on and the limit of its body are those of a
    configuration that was in force when it arrived or afterwards. -/
theorem one_configuration_per_request {labels : List ApplicationLabel} {final : World}
    (hrun : run labels = some final) {index : Nat} {task : Task} (htask : final.tasks[index]? = some task) :
    ∃ limiter, Read labels index task.request limiter ∧
      ∀ event ∈ task.log, event.Obeys task.request limiter := by
  rcases obeys_of_run hrun htask with hunread | ⟨limiter, hread, hobeys⟩
  · refine ⟨final.limiter, ?_, ?_⟩
    · exact ⟨labels, [], final, (List.append_nil labels).symm, hrun, rfl,
        Or.inl (List.getElem?_eq_some_iff.mp htask).1⟩
    · rw [hunread.log]
      exact fun _ hevent => absurd hevent List.not_mem_nil
  · exact ⟨limiter, hread, hobeys.events⟩

/-- A visitor of a report, counted by its address. -/
def report_visit : Request where
  client_ip := none
  handler_names _ := ["report"]
  scope_identifiers _ _ := .ok (OrderedDict.empty.set "ip" "192.0.2.1")
  extensions := none

/-- The limit and the rules are removed while the first hit is counted. -/
def removed_meanwhile : List ApplicationLabel :=
  [.call (.update_route (.expected "report") (.expected 2048)),
    .call (.configure (.update_policy (.expected "report") (.expected [.expected Rule.one_per_minute]) (.ok ()))),
    .take (.arrive report_visit), .call (.remove_route "report"), .call (.configure (.remove_policy "report" (.ok ()))),
    .take (.resume 0 (.hit ⟨1, some 0, 0, none⟩))]

def is_paced_at (max_rate : ℤ) (task : Task) : Bool := .app_invoked (some max_rate) none ∈ task.log

theorem removed_meanwhile_paced :
    ∃ final task limiter, run removed_meanwhile = some final ∧ final.tasks[0]? = some task ∧
      is_paced_at 2048 task ∧ final.limiter.get_limit "report" = none ∧
      Read removed_meanwhile 0 task.request limiter ∧ ∀ event ∈ task.log, event.Obeys task.request limiter := by
  have hobserved : (run removed_meanwhile).map (fun final =>
      (final.tasks[0]?.map (is_paced_at 2048), final.limiter.get_limit "report")) = some (some true, none) := by
    decide +kernel
  obtain ⟨final, hrun, hfinal⟩ := Option.map_eq_some_iff.mp hobserved
  obtain ⟨htasks, hremoved⟩ := Prod.mk.inj hfinal
  obtain ⟨task, htask, hpaced⟩ := Option.map_eq_some_iff.mp htasks
  obtain ⟨limiter, hread, hobeys⟩ := one_configuration_per_request hrun htask
  exact ⟨final, task, limiter, hrun, htask, hpaced, hremoved, hread, hobeys⟩

/-- A rate that a call of the run gave to a route. -/
def GivenRate (labels : List ApplicationLabel) (rate : ℤ) : Prop :=
  ∃ call, .call call ∈ labels ∧ call.GivesRate rate

/-- A rule that a call of the run gave to a policy. -/
def GivenRule (labels : List ApplicationLabel) (rule : Rule) : Prop :=
  ∃ call, .call call ∈ labels ∧ call.GivesRule rule

/-- Nothing is configured along a run that no call gave. -/
theorem configured_of_run {labels : List ApplicationLabel} {final : World} (hrun : run labels = some final) :
    final.limiter.Configured (GivenRate labels) (GivenRule labels) := by
  refine @execute_invariant_along _ _ step
    (fun world => world.limiter.Configured (GivenRate labels) (GivenRule labels)) _ _ _ Limiter.configured_init
    ?_ hrun
  intro before label rest world next hsplit _ hconfigured hstep
  obtain ⟨taken, htaken, hinner⟩ := Option.bind_eq_some_iff.mp hstep
  have hmem : label ∈ labels := by simp [hsplit]
  cases label with
  | call call =>
    cases htaken
    cases hinner
    exact hconfigured.call (fun rate hrate => ⟨call, hmem, hrate⟩) (fun rule hrule => ⟨call, hmem, hrule⟩)
  | take label =>
    have hsame : next.limiter = world.limiter := by
      refine World.step_limiter ?_ hinner
      rintro limiter rfl
      cases label <;> cases htaken
    exact hsame ▸ hconfigured

/-- What a request decides by was given by a call of the run. -/
theorem Read.decides {labels : List ApplicationLabel} {index : Nat} {request : Request} {limiter : Limiter}
    (h : Read labels index request limiter) {decision : PolicyDecision}
    (hdecides : request.Decides limiter decision) :
    ∃ rule retry_after, GivenRule labels rule ∧ 1 ≤ retry_after ∧ decision = rule.action.decide retry_after := by
  obtain ⟨rule, hrule, retry_after, hretry, hdecision⟩ := hdecides
  obtain ⟨earlier, later, world, rfl, hrun, rfl, -⟩ := h
  obtain ⟨call, hcall, hgives⟩ := (configured_of_run hrun).select_policy_rules _ rule hrule
  exact ⟨rule, retry_after, ⟨call, List.mem_append_left _ hcall, hgives⟩, hretry, hdecision⟩

theorem Read.select_route_limit {labels : List ApplicationLabel} {index : Nat} {request : Request}
    {limiter : Limiter} (h : Read labels index request limiter) {handler_names : List String} {rate : ℤ}
    (hselected : limiter.select_route_limit handler_names = some rate) : 0 < rate ∧ GivenRate labels rate := by
  obtain ⟨earlier, later, world, rfl, hrun, rfl, -⟩ := h
  obtain ⟨hpos, call, hcall, hgives⟩ := (configured_of_run hrun).select_route_limit hselected
  exact ⟨hpos, call, List.mem_append_left _ hcall, hgives⟩

/-- With the actions of the package no request leaves the bounds that the calls
    of the run gave, at any moment of any run: a body is limited to a positive
    rate that was given for a route or by a `Throttle`, an answer is a fixed one
    or that of a `Reject` that was given, with a time to wait of at least a
    second, and only a `Delay` that was given holds a request back. -/
theorem effects_within_bounds {labels : List ApplicationLabel} {final : World}
    (hbuiltin : ∀ rule, GivenRule labels rule → rule.action.Builtin) (hrun : run labels = some final) {task : Task}
    (htask : task ∈ final.tasks) :
    (∀ max_rate seen, .app_invoked (some max_rate) seen ∈ task.log → 0 < max_rate ∧
      (GivenRate labels max_rate ∨ ∃ rule throttle, GivenRule labels rule ∧ rule.action = Throttle.action throttle ∧
        max_rate = throttle.bytes_per_sec)) ∧
    (∀ response, .responding response ∈ task.log →
      response ∈ [build_blocked_ip_response, build_shutdown_response, build_backend_unavailable_response] ∨
      ∃ rule reject seconds, GivenRule labels rule ∧ rule.action = Reject.action reject ∧ 1 ≤ seconds ∧
        response = ⟨reject.status_code, "Rate Limit Exceeded", reject.detail, some seconds⟩) ∧
    ∀ decision route_limit, task.phase = .delaying decision route_limit →
      ∃ rule delay, GivenRule labels rule ∧ rule.action = Delay.action delay ∧ decision.pre_delay = delay.seconds := by
  obtain ⟨index, hlength, hindex⟩ := List.mem_iff_getElem.mp htask
  have hfound : final.tasks[index]? = some task := List.getElem?_eq_some_iff.mpr ⟨hlength, hindex⟩
  rcases obeys_of_run hrun hfound with hunread | ⟨limiter, hread, hobeys⟩
  · refine ⟨?_, ?_, ?_⟩
    · rw [hunread.log]
      exact nofun
    · rw [hunread.log]
      exact nofun
    · intro decision route_limit hdelaying
      rcases hunread.phase with hphase | hphase <;> rw [hphase] at hdelaying <;> cases hdelaying
  · refine ⟨fun max_rate seen hinvoked => ?_, fun response hresponding => ?_,
      fun decision route_limit hdelaying => ?_⟩
    · obtain ⟨decision, hdecision, hrate⟩ := hobeys.events _ hinvoked
      rcases Option.or_eq_some_iff.mp hrate.symm with hthrottle | ⟨-, hlimit⟩
      · obtain ⟨taken, htaken, hbytes⟩ := Option.bind_eq_some_iff.mp hthrottle
        obtain ⟨rule, retry_after, hgiven, -, rfl⟩ := hread.decides (hdecision taken htaken).1
        obtain ⟨throttle, haction, rfl⟩ := (hbuiltin rule hgiven).throttles hbytes
        exact ⟨throttle.bytes_per_sec_pos, Or.inr ⟨rule, throttle, hgiven, haction, rfl⟩⟩
      · exact (hread.select_route_limit hlimit).imp_right Or.inl
    · refine (hobeys.events _ hresponding).imp_right ?_
      rintro ⟨decision, hdecides, hreject, rfl⟩
      obtain ⟨rule, retry_after, hgiven, hretry, rfl⟩ := hread.decides hdecides
      obtain ⟨reject, haction⟩ := (hbuiltin rule hgiven).rejects hreject
      exact ⟨rule, reject, retry_after, hgiven, haction, hretry, by rw [haction]; rfl⟩
    · have hphase := hobeys.phase
      rw [hdelaying] at hphase
      obtain ⟨rule, retry_after, hgiven, -, rfl⟩ := hread.decides hphase.1.1
      obtain ⟨delay, haction⟩ := (hbuiltin rule hgiven).delays hphase.1.2.2
      exact ⟨rule, delay, hgiven, haction, by rw [haction]; rfl⟩

/-- The second visit in a minute. -/
def visited_twice : List ApplicationLabel :=
  [.call (.update_route (.expected "report") (.expected (-1))),
    .call (.configure (.update_policy (.expected "report") (.expected [.expected Rule.one_per_minute]) (.ok ()))),
    .take (.arrive report_visit), .take (.resume 0 (.hit ⟨2, some 0, 1, some 0⟩))]

def is_answered (task : Task) : Bool :=
  .responding ⟨429, "Rate Limit Exceeded", "Rate limit exceeded", some 59⟩ ∈ task.log

theorem visited_twice_rejected :
    ∃ final task, run visited_twice = some final ∧ task ∈ final.tasks ∧ is_answered task ∧
      ∃ rule reject seconds, GivenRule visited_twice rule ∧ rule.action = Reject.action reject ∧ 1 ≤ seconds ∧
        (⟨429, "Rate Limit Exceeded", "Rate limit exceeded", some 59⟩ : Response) =
          ⟨reject.status_code, "Rate Limit Exceeded", reject.detail, some seconds⟩ := by
  have hobserved : (run visited_twice).map (fun final => final.tasks[0]?.map is_answered) = some (some true) := by
    decide +kernel
  have hbuiltin : ∀ rule, GivenRule visited_twice rule → rule.action.Builtin := by
    rintro rule ⟨call, hcall, hgives⟩
    cases hgives with
    | update_policy endpoint_name items cleanup rule hitem =>
      simp only [visited_twice, List.mem_cons, ApplicationLabel.call.injEq, PublicCall.configure.injEq,
        ConfigurationCall.update_policy.injEq, Argument.expected.injEq, List.not_mem_nil, or_false, reduceCtorEq,
        false_or] at hcall
      obtain ⟨-, rfl, -⟩ := hcall
      obtain rfl := Argument.expected.inj (List.mem_singleton.mp hitem)
      exact .reject Reject.default
  obtain ⟨final, hrun, hfinal⟩ := Option.map_eq_some_iff.mp hobserved
  obtain ⟨task, htask, hanswered⟩ := Option.map_eq_some_iff.mp hfinal
  have hmem : task ∈ final.tasks := List.mem_of_getElem? htask
  have hresponding := of_decide_eq_true hanswered
  refine ⟨final, task, hrun, hmem, hanswered, ?_⟩
  rcases (effects_within_bounds hbuiltin hrun hmem).2.1 _ hresponding with hfixed | hreject
  · simp [build_blocked_ip_response, build_shutdown_response, build_backend_unavailable_response] at hfixed
  · exact hreject

end Application

end response_bandwidth_limiter.middleware

import ResponseBandwidthLimiter.Middleware.Effects
import ResponseBandwidthLimiter.Middleware.IpGate
import ResponseBandwidthLimiter.Middleware.RequestGate

open collections
open response_bandwidth_limiter.base response_bandwidth_limiter.models response_bandwidth_limiter.policy
open response_bandwidth_limiter.limiter response_bandwidth_limiter.shutdown response_bandwidth_limiter.ip_manager

namespace response_bandwidth_limiter.middleware

/-- The lookups of the IP gate. -/
def Phase.checking : Phase → Bool
  | .checking_blocked => true
  | .checking_allowed => true
  | _ => false

/-- A request that went through the gate without being blocked. -/
structure Task.Unblocked (task : Task) : Prop where
  responses : build_blocked_ip_response ∉ task.responses
  phase : task.phase.checking = false

/-- A request that is not counted and not rejected. -/
structure Task.Exempt (task : Task) : Prop where
  hits : task.hits = []
  responses : ∀ response ∈ task.responses,
    response = build_shutdown_response ∨ response = build_backend_unavailable_response
  phase : task.phase = .responding .plain ∨ task.phase = .unlimited_app ∨
    (∃ max_rate original_extensions, task.phase = .limited_app max_rate original_extensions) ∨
    ∃ outcome, task.phase = .finished outcome

namespace Frame

variable {self : Frame}

/-- No response of the request tells that its address is blocked. -/
def Unanswered (self : Frame) : Prop := build_blocked_ip_response ∉ self.task.responses

theorem Unanswered.note (h : self.Unanswered) {event : Event}
    (hevent : event.response ≠ some build_blocked_ip_response) : (self.note event).Unanswered := by
  unfold Unanswered
  rw [note_responses, List.mem_append, Option.mem_toList]
  rintro (hbefore | hnew)
  · exact h hbefore
  · exact hevent hnew

theorem Unanswered.invoke (h : self.Unanswered) (max_rate : Option ℤ) (seen : Option Extensions) :
    (self.note (.app_invoked max_rate seen)).Unanswered := h.note nofun

theorem Unanswered.request_hit (h : self.Unanswered) (request_key handler_name : String) (rule_index : Nat) :
    (self.note (.hit_requested request_key handler_name rule_index)).Unanswered := h.note nofun

theorem Unanswered.await (h : self.Unanswered) {phase : Phase} (hphase : phase.checking = false) :
    (self.await phase).task.Unblocked := ⟨h, hphase⟩

theorem Unanswered.finish (h : self.Unanswered) (outcome : Outcome) : (self.finish outcome).task.Unblocked :=
  h.await rfl

theorem Unanswered.respond (h : self.Unanswered) {response : Response} (context : Context)
    (hresponse : response ≠ build_blocked_ip_response) : (self.respond response context).task.Unblocked := by
  refine (h.note ?_).await rfl
  exact fun hsome => hresponse (Option.some.inj hsome)

theorem Unanswered.enter_response (h : self.Unanswered) : self.enter_response.Unanswered := by
  have hcounted : Frame.Unanswered { self with coordinator := self.coordinator.enter_response } := h
  exact hcounted.note nofun

theorem Unanswered.exit_response (h : self.Unanswered) : self.exit_response.Unanswered := by
  have hcounted : Frame.Unanswered { self with coordinator := self.coordinator.exit_response } := h
  exact hcounted.note nofun

theorem Unanswered.leave_limited_app (h : self.Unanswered) (original_extensions : Option Extensions)
    (outcome : Outcome) : (self.leave_limited_app original_extensions outcome).task.Unblocked := by
  unfold Frame.leave_limited_app
  simp only
  split
  · have hbound : (self.bind_extensions original_extensions).Unanswered := h
    exact hbound.exit_response.finish outcome
  · exact h.exit_response.finish outcome

theorem Unanswered.leave_delay (h : self.Unanswered) (failure : Failure) :
    (self.leave_delay failure).task.Unblocked := by
  unfold Frame.leave_delay
  split
  · exact h.exit_response.finish _
  · exact h.exit_response.finish _

theorem Unanswered.fail_closed (h : self.Unanswered) (failure : Failure) :
    (self.fail_closed failure).task.Unblocked := by
  unfold Frame.fail_closed
  split
  · exact h.respond _ (by decide)
  · exact h.finish _

theorem Unanswered.call_limited_app (h : self.Unanswered) (max_rate : ℤ) :
    (self.call_limited_app max_rate).task.Unblocked := by
  unfold Frame.call_limited_app
  simp only
  split
  · have hbound : (self.enter_response.bind_extensions
        (self.enter_response.task.extensions.map Extensions.paced)).Unanswered := h.enter_response
    exact (hbound.invoke _ _).await rfl
  · exact (h.enter_response.invoke _ _).await rfl

theorem Unanswered.dispatch (h : self.Unanswered) (decision : Option PolicyDecision) (route_limit : Option ℤ) :
    (self.dispatch decision route_limit).task.Unblocked := by
  unfold Frame.dispatch
  split
  · exact (h.invoke _ _).await rfl
  · exact h.call_limited_app _

theorem Unanswered.poll_delay (h : self.Unanswered) (decision : PolicyDecision) (route_limit : Option ℤ) :
    (self.poll_delay decision route_limit).task.Unblocked := by
  unfold Frame.poll_delay
  split
  · exact h.await rfl
  · exact h.await rfl

theorem Unanswered.complete_delay (h : self.Unanswered) (decision : PolicyDecision) (route_limit : Option ℤ) :
    (self.complete_delay decision route_limit).task.Unblocked := by
  unfold Frame.complete_delay
  split
  · exact h.leave_delay _
  split
  · exact h.respond _ (by decide)
  · exact h.exit_response.dispatch _ _

theorem Unanswered.decide (h : self.Unanswered) (decision : PolicyDecision) (route_limit : Option ℤ) :
    (self.decide decision route_limit).task.Unblocked := by
  unfold Frame.decide
  split
  · refine h.respond _ fun hsame => ?_
    have herror := congrArg Response.error hsame
    revert herror
    simp only [build_reject_response, build_blocked_ip_response]
    decide
  split
  · exact h.enter_response.poll_delay _ _
  · exact h.dispatch _ _

theorem Unanswered.evaluate (h : self.Unanswered) (evaluation : Evaluation) (route_limit : Option ℤ) :
    (self.evaluate evaluation route_limit).task.Unblocked := by
  unfold Frame.evaluate
  split
  · exact h.dispatch _ _
  · exact h.decide _ _
  · exact h.finish _
  · exact (h.request_hit _ _ _).await rfl

theorem Unanswered.proceed (h : self.Unanswered) (limiter : Limiter) (ip_allowed : Bool) :
    (self.proceed limiter ip_allowed).task.Unblocked := by
  unfold Frame.proceed
  split
  · exact (h.invoke _ _).await rfl
  · simp only
    split
    · exact h.respond _ (by decide)
    split
    · exact h.dispatch _ _
    split
    · exact h.respond _ (by decide)
    · exact h.finish _
    split
    · exact h.dispatch _ _
    · exact h.evaluate _ _

theorem Unanswered.handle (h : self.Unanswered) {failure : Failure} {next : Frame}
    (hhandle : self.handle failure = some next) : next.task.Unblocked := by
  unfold Frame.handle at hhandle
  split at hhandle <;> cases hhandle
  · exact h.fail_closed _
  · exact h.fail_closed _
  · exact h.finish _
  · exact h.fail_closed _
  · exact h.leave_delay _
  · exact h.fail_closed _
  · exact h.await rfl
  · exact h.leave_delay _
  · exact h.finish _
  · exact h.leave_limited_app _ _

/-- Only a lookup that finds the address blocked answers so. -/
theorem Unanswered.resume (h : self.Unanswered) (hphase : self.task.phase ≠ .checking_blocked) {limiter : Limiter}
    {answer : Answer} {next : Frame} (hresume : self.resume limiter answer = some next) :
    next.task.Unblocked := by
  unfold Frame.resume at hresume
  split at hresume
  case h_12 => exact h.handle hresume
  case h_1 hblocked => exact absurd hblocked hphase
  case h_2 hblocked => exact absurd hblocked hphase
  all_goals cases hresume
  · exact h.proceed _ _
  · exact h.exit_response.finish _
  · exact h.finish _
  · exact h.evaluate _ _
  · exact h.complete_delay _ _
  · exact h.poll_delay _ _
  · exact h.leave_delay _
  · exact h.finish _
  · exact h.leave_limited_app _ _

/-- So far the request was not counted, and not answered but for a shutdown or an
    unavailable storage. -/
structure Uncounted (frame : Frame) : Prop where
  hits : frame.task.hits = []
  responses : ∀ response ∈ frame.task.responses,
    response = build_shutdown_response ∨ response = build_backend_unavailable_response

theorem Uncounted.note (h : self.Uncounted) {event : Event} (hhit : event.hit = none)
    (hresponse : ∀ response ∈ event.response,
      response = build_shutdown_response ∨ response = build_backend_unavailable_response) :
    (self.note event).Uncounted := by
  constructor
  · rw [note_hits, h.hits, hhit]
    rfl
  · intro response hmem
    rw [note_responses, List.mem_append, Option.mem_toList] at hmem
    rcases hmem with hbefore | hnew
    · exact h.responses response hbefore
    · exact hresponse response hnew

theorem Uncounted.invoke (h : self.Uncounted) (max_rate : Option ℤ) (seen : Option Extensions) :
    (self.note (.app_invoked max_rate seen)).Uncounted := h.note rfl nofun

theorem Uncounted.finish (h : self.Uncounted) (outcome : Outcome) : (self.finish outcome).task.Exempt :=
  ⟨h.hits, h.responses, Or.inr (Or.inr (Or.inr ⟨outcome, rfl⟩))⟩

theorem Uncounted.respond (h : self.Uncounted) {response : Response}
    (hresponse : response = build_shutdown_response ∨ response = build_backend_unavailable_response) :
    (self.respond response .plain).task.Exempt := by
  have hnoted : (self.note (.responding response)).Uncounted := h.note rfl (by rintro _ ⟨⟩; exact hresponse)
  exact ⟨hnoted.hits, hnoted.responses, Or.inl rfl⟩

theorem Uncounted.call_app (h : self.Uncounted) : self.call_app.task.Exempt :=
  ⟨(h.invoke _ _).hits, (h.invoke _ _).responses, Or.inr (Or.inl rfl)⟩

theorem Uncounted.enter_response (h : self.Uncounted) : self.enter_response.Uncounted := by
  have hcounted : Frame.Uncounted { self with coordinator := self.coordinator.enter_response } :=
    ⟨h.hits, h.responses⟩
  exact hcounted.note rfl nofun

theorem Uncounted.exit_response (h : self.Uncounted) : self.exit_response.Uncounted := by
  have hcounted : Frame.Uncounted { self with coordinator := self.coordinator.exit_response } :=
    ⟨h.hits, h.responses⟩
  exact hcounted.note rfl nofun

theorem Uncounted.dispatch (h : self.Uncounted) (route_limit : Option ℤ) :
    (self.dispatch none route_limit).task.Exempt := by
  unfold Frame.dispatch
  split
  · exact h.call_app
  · unfold Frame.call_limited_app
    simp only
    split
    · have hbound : (self.enter_response.bind_extensions
          (self.enter_response.task.extensions.map Extensions.paced)).Uncounted :=
        ⟨h.enter_response.hits, h.enter_response.responses⟩
      have hinvoked := hbound.invoke
      exact ⟨(hinvoked _ _).hits, (hinvoked _ _).responses, Or.inr (Or.inr (Or.inl ⟨_, _, rfl⟩))⟩
    · have hinvoked := h.enter_response.invoke
      exact ⟨(hinvoked _ _).hits, (hinvoked _ _).responses, Or.inr (Or.inr (Or.inl ⟨_, _, rfl⟩))⟩

theorem Uncounted.leave_limited_app (h : self.Uncounted) (original_extensions : Option Extensions)
    (outcome : Outcome) : (self.leave_limited_app original_extensions outcome).task.Exempt := by
  unfold Frame.leave_limited_app
  simp only
  split
  · have hbound : (self.bind_extensions original_extensions).Uncounted := ⟨h.hits, h.responses⟩
    exact hbound.exit_response.finish outcome
  · exact h.exit_response.finish outcome

/-- An address that is allowed skips the evaluation of the policy. -/
theorem Uncounted.proceed (h : self.Uncounted) (limiter : Limiter) : (self.proceed limiter true).task.Exempt := by
  unfold Frame.proceed
  split
  · exact h.call_app
  · simp only
    split
    · exact h.respond (Or.inl rfl)
    split
    · exact h.dispatch _
    split
    · exact h.respond (Or.inr rfl)
    · exact h.finish _
    · exact h.dispatch _

theorem resume_exempt (h : self.task.Exempt) {limiter : Limiter} {answer : Answer} {next : Frame}
    (hresume : self.resume limiter answer = some next) : next.task.Exempt := by
  have huncounted : self.Uncounted := ⟨h.hits, h.responses⟩
  rcases h.phase with hphase | hphase | ⟨max_rate, original_extensions, hphase⟩ | ⟨outcome, hphase⟩
  · cases answer <;> simp only [Frame.resume, Frame.handle, hphase, Option.some.injEq, reduceCtorEq] at hresume
    · exact hresume ▸ huncounted.finish _
    · exact hresume ▸ huncounted.finish _
  · cases answer <;> simp only [Frame.resume, Frame.handle, hphase, Option.some.injEq, reduceCtorEq] at hresume
    · exact hresume ▸ huncounted.finish _
    · exact hresume ▸ huncounted.finish _
  · cases answer <;> simp only [Frame.resume, Frame.handle, hphase, Option.some.injEq, reduceCtorEq] at hresume
    · exact hresume ▸ huncounted.leave_limited_app _ _
    · exact hresume ▸ huncounted.leave_limited_app _ _
  · cases answer <;> simp only [Frame.resume, Frame.handle, hphase, reduceCtorEq] at hresume

end Frame

/-- A request that was answered at the gate that its address is blocked. -/
structure Task.Blocked (task : Task) : Prop where
  at_gate : task.AtGate
  phase : task.phase ≠ .checking_blocked
  responses : build_blocked_ip_response ∈ task.responses

theorem Frame.resume_blocked {self : Frame} (h : self.task.Blocked) {limiter : Limiter} {answer : Answer}
    {next : Frame} (hresume : self.resume limiter answer = some next) : next.task.Blocked := by
  have hgate := Frame.resume_atGate h.at_gate (fun hphase => absurd hphase h.phase) hresume
  rcases h.at_gate.phase with hphase | ⟨hphase | hphase, -⟩ | ⟨outcome, hphase⟩
  · exact absurd hphase h.phase
  · cases answer <;> simp only [Frame.resume, Frame.handle, hphase, Option.some.injEq, reduceCtorEq] at hresume
    · subst hresume
      exact ⟨hgate, Phase.noConfusion, h.responses⟩
    · next failure =>
      subst hresume
      revert hgate
      unfold Frame.fail_closed
      split
      · intro hgate
        refine ⟨hgate, Phase.noConfusion, ?_⟩
        have hresponses := Frame.note_responses self (.responding build_backend_unavailable_response)
        exact hresponses.symm ▸ List.mem_append_left _ h.responses
      · exact fun hgate => ⟨hgate, Phase.noConfusion, h.responses⟩
  · cases answer <;> simp only [Frame.resume, Frame.handle, hphase, Option.some.injEq, reduceCtorEq] at hresume
    · subst hresume
      exact ⟨hgate, Phase.noConfusion, h.responses⟩
    · subst hresume
      exact ⟨hgate, Phase.noConfusion, h.responses⟩
  · cases answer <;> simp only [Frame.resume, Frame.handle, hphase, reduceCtorEq] at hresume

theorem Task.Blocked.rebind {task : Task} (h : task.Blocked) {extensions : Option Extensions} :
    Task.Blocked { task with extensions } := by
  obtain ⟨⟨⟨huninvoked, huncounted, hrefusals, hanswered⟩, hphase⟩, hpast, hresponses⟩ := h
  exact ⟨⟨⟨huninvoked, huncounted, hrefusals, hanswered⟩, hphase⟩, hpast, hresponses⟩

theorem Task.Refused.hits {task : Task} (h : task.Refused) : task.hits = [] := by
  rw [Task.hits, List.filterMap_eq_nil_iff]
  intro event hevent
  cases event with
  | hit_requested request_key handler_name rule_index =>
    exact absurd hevent (h.uncounted request_key handler_name rule_index)
  | _ => rfl

namespace World

/-- A request waits at the gate with nothing done, or has read a configuration. -/
def Reads (world : World) : Prop := ∀ task ∈ world.tasks, task.Unread ∨ ∃ limiter, task.Obeys limiter

theorem Reads.step {world next : World} (h : world.Reads) {label : Label} (hstep : world.step label = some next) :
    next.Reads := by
  intro task hmem
  obtain ⟨index, hindex⟩ := List.getElem?_of_mem hmem
  rcases step_obeys hstep hindex with ⟨before, hbefore, -, hunread, hobeys⟩ | ⟨-, -, hnew⟩
  · rcases h before (List.mem_of_getElem? hbefore) with hbefore | ⟨limiter, hbefore⟩
    · exact (hunread hbefore).imp_right fun hread => ⟨_, hread⟩
    · exact Or.inr ⟨limiter, hobeys limiter hbefore⟩
  · exact hnew.imp_right fun hread => ⟨_, hread⟩

/-- At the gate nothing was done for a request. -/
theorem Reads.log_of_checking {world : World} (h : world.Reads) {task : Task} (hmem : task ∈ world.tasks)
    (hchecking : task.phase.checking) : task.log = [] := by
  rcases h task hmem with hunread | ⟨limiter, hobeys⟩
  · exact hunread.log
  · have hphase := hobeys.phase
    cases hfound : task.phase with
    | checking_blocked => exact (hfound ▸ hphase :).elim
    | checking_allowed => exact (hfound ▸ hphase :).elim
    | _ =>
      rw [hfound] at hchecking
      cases hchecking

end World

end response_bandwidth_limiter.middleware

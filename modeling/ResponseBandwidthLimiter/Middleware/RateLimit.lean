import ResponseBandwidthLimiter.Middleware.Accounting

open collections
open response_bandwidth_limiter.base response_bandwidth_limiter.models response_bandwidth_limiter.policy
open response_bandwidth_limiter.limiter response_bandwidth_limiter.shutdown

namespace response_bandwidth_limiter.policy

/-- A rule of a policy that is not overruled when it is over its limit: every
    action that could be taken in its place rejects the request as well. -/
def Prevails (rules : List Rule) (rule : Rule) : Prop :=
  ∀ other ∈ rules, other.action.priority ≤ rule.action.priority →
    ∀ retry_after, (other.action.decide retry_after).reject

/-- Among the actions of the package nothing overrules a `Reject`. -/
theorem prevails_of_reject {rules : List Rule} {rule : Rule}
    (hbuiltin : ∀ other ∈ rules, (∃ throttle : Throttle, other.action = throttle.action) ∨
      (∃ reject : Reject, other.action = reject.action) ∨ ∃ delay : Delay, other.action = delay.action)
    {reject : Reject} (hreject : rule.action = reject.action) : Prevails rules rule := by
  intro other hother hpriority retry_after
  rw [hreject] at hpriority
  rcases hbuiltin other hother with ⟨throttle, haction⟩ | ⟨reject, haction⟩ | ⟨delay, haction⟩
  · rw [haction] at hpriority
    exact absurd hpriority (by simp [Throttle.action, Reject.action])
  · rw [haction]
    rfl
  · rw [haction] at hpriority
    exact absurd hpriority (by simp [Delay.action, Reject.action])

/-- An evaluation that counts and compares rules of one policy. -/
structure Evaluation.Compares (evaluation : Evaluation) (rules : List Rule) : Prop where
  remaining : ∀ numbered ∈ evaluation.remaining, numbered ∈ rules.zipIdx
  matched : ∀ candidate ∈ evaluation.matched_actions, candidate.rule ∈ rules

namespace Evaluation

variable {self : Evaluation} {rules : List Rule}

theorem compares_start (scope_identifiers : OrderedDict String String) (handler_name : String) (rules : List Rule) :
    (start scope_identifiers handler_name rules).Compares rules :=
  ⟨fun _ hnumbered => hnumbered, fun _ hcandidate => absurd hcandidate List.not_mem_nil⟩

theorem mem_count_rule {rule : Rule} {index : Nat} {matched_actions : List CandidateAction}
    {hit_result : SlidingWindowResult} {candidate : CandidateAction}
    (hcandidate : candidate ∈ count_rule rule index matched_actions hit_result) :
    candidate ∈ matched_actions ∨ candidate.rule = rule := by
  simp only [count_rule] at hcandidate
  split at hcandidate
  · rcases List.mem_append.mp hcandidate with hbefore | hnew
    · exact Or.inl hbefore
    · rw [List.mem_singleton.mp hnew]
      exact Or.inr rfl
  · exact Or.inl hcandidate

theorem subset_count_rule (rule : Rule) (index : Nat) (matched_actions : List CandidateAction)
    (hit_result : SlidingWindowResult) : matched_actions ⊆ count_rule rule index matched_actions hit_result := by
  intro candidate hcandidate
  simp only [count_rule]
  split
  · exact List.mem_append_left _ hcandidate
  · exact hcandidate

@[simp] theorem resume_handler_name (self : Evaluation) (hit_result : SlidingWindowResult) :
    (self.resume hit_result).handler_name = self.handler_name := by
  unfold Evaluation.resume
  split <;> rfl

theorem Compares.resume (h : self.Compares rules) (hit_result : SlidingWindowResult) :
    (self.resume hit_result).Compares rules := by
  unfold Evaluation.resume
  split
  · exact h
  · next rule index rest hremaining =>
    have hrule : (rule, index) ∈ rules.zipIdx := h.remaining _ (hremaining ▸ List.mem_cons_self)
    refine ⟨fun numbered hnumbered => ?_, fun candidate hcandidate => ?_⟩
    · exact h.remaining _ (hremaining ▸ List.mem_cons_of_mem _ hnumbered)
    · rcases mem_count_rule hcandidate with hbefore | hnew
      · exact h.matched candidate hbefore
      · exact hnew ▸ List.fst_mem_of_mem_zipIdx hrule

/-- The next hit of an evaluation is that of a rule of the policy. -/
theorem Compares.next_rule (h : self.Compares rules) {request_key : String} {rule_index : Nat} {rule : Rule}
    (hnext : self.next = .record_hit request_key rule_index rule) : rules[rule_index]? = some rule := by
  unfold Evaluation.next at hnext
  split at hnext
  · cases hnext
  · next hremaining =>
    split at hnext
    · cases hnext
    · cases hnext
      exact List.mk_mem_zipIdx_iff_getElem?.mp (h.remaining _ (hremaining ▸ List.mem_cons_self))

/-- A rule over its limit that prevails. -/
def Rejects (evaluation : Evaluation) (rules : List Rule) : Prop :=
  ∃ candidate ∈ evaluation.matched_actions, Prevails rules candidate.rule

theorem Rejects.resume (h : self.Rejects rules) (hit_result : SlidingWindowResult) :
    (self.resume hit_result).Rejects rules := by
  obtain ⟨candidate, hcandidate, hprevails⟩ := h
  unfold Evaluation.resume
  split
  · exact ⟨candidate, hcandidate, hprevails⟩
  · exact ⟨candidate, subset_count_rule _ _ _ _ hcandidate, hprevails⟩

/-- A hit over the limit of a rule that prevails decides the evaluation. -/
theorem rejects_of_hit {request_key : String} {rule_index : Nat} {rule : Rule}
    (hnext : self.next = .record_hit request_key rule_index rule) (hprevails : Prevails rules rule)
    {hit_result : SlidingWindowResult} (hover : rule.count < hit_result.hit_count) :
    (self.resume hit_result).Rejects rules := by
  unfold Evaluation.next at hnext
  split at hnext
  · cases hnext
  · next hremaining =>
    split at hnext
    · cases hnext
    · cases hnext
      simp only [Evaluation.resume, hremaining, Rejects, count_rule, if_pos hover]
      exact ⟨_, List.mem_append_right _ (List.mem_singleton_self _), hprevails⟩

theorem Rejects.selected (h : self.Rejects rules) (hcompares : self.Compares rules) :
    ∃ matched, select_rule_action self.matched_actions = some matched ∧
      ((matched.rule.action.decide matched.retry_after).reject) := by
  obtain ⟨candidate, hcandidate, hprevails⟩ := h
  cases hselected : select_rule_action self.matched_actions with
  | none =>
    rw [select_rule_action_eq_none_iff.mp hselected] at hcandidate
    exact absurd hcandidate List.not_mem_nil
  | some matched =>
    obtain ⟨first, hfirst, rfl, hleast⟩ := exists_of_select_rule_action hselected
    refine ⟨_, rfl, hprevails first.rule (hcompares.matched first hfirst) ?_ _⟩
    rcases CandidateAction.sort_tuple_le_iff.mp (hleast candidate hcandidate) with hless | ⟨hsame, -⟩
    · exact le_of_lt hless
    · exact le_of_eq hsame

end Evaluation

end response_bandwidth_limiter.policy

namespace response_bandwidth_limiter.limiter

/-- The rules that are selected are those of the name that is selected. -/
theorem Limiter.get_rules_of_select {self : Limiter} {handler_names : List String} {handler_name : String}
    {rules : List Rule} (hselected : self.select_policy_rules handler_names = (some handler_name, rules)) :
    self.get_rules handler_name = rules := by
  induction handler_names with
  | nil => cases hselected
  | cons first rest ih =>
    unfold Limiter.select_policy_rules at hselected
    split at hselected
    · exact ih hselected
    · cases hselected
      rfl

end response_bandwidth_limiter.limiter

namespace response_bandwidth_limiter.middleware

variable {handler_name : String} {rules : List Rule}

/-- An evaluation of a handler compares the rules of its policy. -/
def Task.Evaluates (handler_name : String) (rules : List Rule) (task : Task) : Prop :=
  ∀ evaluation route_limit, task.phase = .evaluating evaluation route_limit →
    evaluation.handler_name = handler_name → evaluation.Compares rules

/-- A request that will not reach the application any more: a rule that prevails
    is over its limit, or the request is being answered, or it is over. -/
structure Task.TurnedAway (rules : List Rule) (task : Task) : Prop where
  uninvoked : ∀ max_rate seen, .app_invoked max_rate seen ∉ task.log
  phase : (∃ evaluation route_limit, task.phase = .evaluating evaluation route_limit ∧
      evaluation.Compares rules ∧ evaluation.Rejects rules) ∨
    (∃ context, task.phase = .responding context) ∨ ∃ outcome, task.phase = .finished outcome

namespace Frame

variable {self : Frame}

/-- The application has not been called. -/
def Uninvoked (self : Frame) : Prop := ∀ max_rate seen, .app_invoked max_rate seen ∉ self.task.log

theorem Uninvoked.note (h : self.Uninvoked) {event : Event}
    (hother : ∀ max_rate seen, event ≠ .app_invoked max_rate seen) : (self.note event).Uninvoked := by
  intro max_rate seen
  simp only [Frame.note, List.mem_append, List.mem_singleton, not_or]
  exact ⟨h max_rate seen, Ne.symm (hother max_rate seen)⟩

theorem Uninvoked.respond (h : self.Uninvoked) (response : Response) (context : Context) :
    (self.respond response context).task.TurnedAway rules :=
  ⟨h.note nofun, Or.inr (Or.inl ⟨context, rfl⟩)⟩

theorem Uninvoked.finish (h : self.Uninvoked) (outcome : Outcome) : (self.finish outcome).task.TurnedAway rules :=
  ⟨h, Or.inr (Or.inr ⟨outcome, rfl⟩)⟩

theorem Uninvoked.fail_closed (h : self.Uninvoked) (failure : Failure) :
    (self.fail_closed failure).task.TurnedAway rules := by
  unfold Frame.fail_closed
  split
  · exact h.respond _ _
  · exact h.finish _

theorem Uninvoked.exit_response (h : self.Uninvoked) : self.exit_response.Uninvoked := by
  have hleft : Frame.Uninvoked { self with coordinator := self.coordinator.exit_response } := h
  exact hleft.note nofun

theorem Uninvoked.leave_delay (h : self.Uninvoked) (failure : Failure) :
    (self.leave_delay failure).task.TurnedAway rules := by
  unfold Frame.leave_delay
  split
  · exact h.exit_response.finish _
  · exact h.exit_response.finish _

/-- The rest of the evaluation cannot let the request through. -/
theorem Uninvoked.evaluate (h : self.Uninvoked) {evaluation : Evaluation} (hcompares : evaluation.Compares rules)
    (hrejects : evaluation.Rejects rules) (route_limit : Option ℤ) :
    (self.evaluate evaluation route_limit).task.TurnedAway rules := by
  unfold Frame.evaluate
  cases hnext : evaluation.next with
  | finish selected =>
    obtain ⟨matched, hselected, hreject⟩ := hrejects.selected hcompares
    have hsame : selected = some matched := by
      unfold Evaluation.next at hnext
      split at hnext
      · rw [← hselected]
        exact (EvaluationAction.finish.inj hnext).symm
      · split at hnext <;> cases hnext
    simp only [hsame, Frame.decide, hreject, if_true]
    exact h.respond _ _
  | fail error => exact h.finish _
  | record_hit request_key rule_index rule =>
    exact ⟨h.note nofun, Or.inl ⟨evaluation, route_limit, rfl, hcompares, hrejects⟩⟩

/-- Whatever its awaited call comes back with, a request that was turned away
    stays so. -/
theorem resume_turnedAway (h : self.task.TurnedAway rules) {limiter : Limiter} {answer : Answer} {next : Frame}
    (hresume : self.resume limiter answer = some next) : next.task.TurnedAway rules := by
  have huninvoked : self.Uninvoked := h.uninvoked
  rcases h.phase with ⟨evaluation, route_limit, hphase, hcompares, hrejects⟩ | ⟨context, hphase⟩ |
    ⟨outcome, hphase⟩
  · cases answer with
    | hit result =>
      simp only [Frame.resume, hphase, Option.some.injEq] at hresume
      exact hresume ▸ huninvoked.evaluate (hcompares.resume result) (hrejects.resume result) route_limit
    | raised failure =>
      simp only [Frame.resume, Frame.handle, hphase, Option.some.injEq] at hresume
      exact hresume ▸ huninvoked.fail_closed failure
    | _ => simp [Frame.resume, hphase] at hresume
  · cases answer with
    | returned =>
      cases context with
      | policy_delay =>
        simp only [Frame.resume, hphase, Option.some.injEq] at hresume
        exact hresume ▸ huninvoked.exit_response.finish _
      | plain =>
        simp only [Frame.resume, hphase, Option.some.injEq] at hresume
        exact hresume ▸ huninvoked.finish _
      | ip_check =>
        simp only [Frame.resume, hphase, Option.some.injEq] at hresume
        exact hresume ▸ huninvoked.finish _
    | raised failure =>
      cases context with
      | policy_delay =>
        simp only [Frame.resume, Frame.handle, hphase, Option.some.injEq] at hresume
        exact hresume ▸ huninvoked.leave_delay failure
      | plain =>
        simp only [Frame.resume, Frame.handle, hphase, Option.some.injEq] at hresume
        exact hresume ▸ huninvoked.finish _
      | ip_check =>
        simp only [Frame.resume, Frame.handle, hphase, Option.some.injEq] at hresume
        exact hresume ▸ huninvoked.fail_closed failure
    | _ => simp [Frame.resume, hphase] at hresume
  · cases answer <;> simp [Frame.resume, Frame.handle, hphase] at hresume

/-- A request whose hit was over the limit of a rule that prevails, or was not
    answered, is turned away. -/
theorem turnedAway_of_hit {evaluation : Evaluation} {route_limit : Option ℤ}
    (hphase : self.task.phase = .evaluating evaluation route_limit) (huninvoked : self.Uninvoked)
    (hcompares : evaluation.Compares rules) {request_key : String} {rule_index : Nat} {rule : Rule}
    (hnext : evaluation.next = .record_hit request_key rule_index rule) (hprevails : Prevails rules rule)
    {answer : Answer} (hover : ∀ result, answer = .hit result → rule.count < result.hit_count) {limiter : Limiter}
    {next : Frame} (hresume : self.resume limiter answer = some next) : next.task.TurnedAway rules := by
  cases answer with
  | hit result =>
    simp only [Frame.resume, hphase, Option.some.injEq] at hresume
    exact hresume ▸ huninvoked.evaluate (hcompares.resume result)
      (Evaluation.rejects_of_hit hnext hprevails (hover result rfl)) route_limit
  | raised failure =>
    simp only [Frame.resume, Frame.handle, hphase, Option.some.injEq] at hresume
    exact hresume ▸ huninvoked.fail_closed failure
  | _ => simp [Frame.resume, hphase] at hresume

/-- No await of the application call or of an answer is one of an evaluation. -/
theorem dispatch_not_evaluating (self : Frame) (decision : Option PolicyDecision) (route_limit : Option ℤ)
    {evaluation : Evaluation} {limit : Option ℤ} :
    (self.dispatch decision route_limit).task.phase ≠ .evaluating evaluation limit := by
  unfold Frame.dispatch
  split
  · exact nofun
  · exact nofun

theorem poll_delay_not_evaluating (self : Frame) (decision : PolicyDecision) (route_limit : Option ℤ)
    {evaluation : Evaluation} {limit : Option ℤ} :
    (self.poll_delay decision route_limit).task.phase ≠ .evaluating evaluation limit := by
  unfold Frame.poll_delay
  split
  · exact nofun
  · exact nofun

theorem leave_delay_not_evaluating (self : Frame) (failure : Failure) {evaluation : Evaluation} {limit : Option ℤ} :
    (self.leave_delay failure).task.phase ≠ .evaluating evaluation limit := by
  unfold Frame.leave_delay
  split
  · exact nofun
  · exact nofun

theorem complete_delay_not_evaluating (self : Frame) (decision : PolicyDecision) (route_limit : Option ℤ)
    {evaluation : Evaluation} {limit : Option ℤ} :
    (self.complete_delay decision route_limit).task.phase ≠ .evaluating evaluation limit := by
  unfold Frame.complete_delay
  split
  · exact self.leave_delay_not_evaluating _
  split
  · exact nofun
  · exact self.exit_response.dispatch_not_evaluating _ _

theorem fail_closed_not_evaluating (self : Frame) (failure : Failure) {evaluation : Evaluation} {limit : Option ℤ} :
    (self.fail_closed failure).task.phase ≠ .evaluating evaluation limit := by
  unfold Frame.fail_closed
  split
  · exact nofun
  · exact nofun

theorem evaluate_evaluating {evaluation : Evaluation} {route_limit : Option ℤ} {found : Evaluation}
    {limit : Option ℤ} (hphase : (self.evaluate evaluation route_limit).task.phase = .evaluating found limit) :
    found = evaluation := by
  unfold Frame.evaluate Frame.decide at hphase
  cases hnext : evaluation.next with
  | finish selected =>
    rw [hnext] at hphase
    cases selected with
    | none => exact absurd hphase (self.dispatch_not_evaluating _ _)
    | some matched =>
      simp only at hphase
      split at hphase
      · cases hphase
      split at hphase
      · exact absurd hphase (self.enter_response.poll_delay_not_evaluating _ _)
      · exact absurd hphase (self.dispatch_not_evaluating _ _)
  | fail error =>
    rw [hnext] at hphase
    cases hphase
  | record_hit request_key rule_index rule =>
    rw [hnext] at hphase
    cases hphase
    rfl

/-- An evaluation begins with the rules that its handler has at that time. -/
theorem proceed_evaluating {limiter : Limiter} {ip_allowed : Bool} {evaluation : Evaluation} {limit : Option ℤ}
    (hphase : (self.proceed limiter ip_allowed).task.phase = .evaluating evaluation limit) :
    evaluation.Compares (limiter.get_rules evaluation.handler_name) := by
  unfold Frame.proceed at hphase
  split at hphase
  · cases hphase
  · next first rest _ =>
    cases hselected : limiter.select_policy_rules (first :: rest) with
    | mk policy_handler_name selected =>
      simp only [hselected] at hphase
      split at hphase
      · cases hphase
      split at hphase
      · exact absurd hphase (self.dispatch_not_evaluating _ _)
      split at hphase
      · cases hphase
      · cases hphase
      split at hphase
      · exact absurd hphase (self.dispatch_not_evaluating _ _)
      · next hrules _ scope_identifiers _ _ =>
        have hne : (limiter.select_policy_rules (first :: rest)).2 ≠ [] := by
          rw [hselected]
          simpa using hrules
        obtain ⟨name, hname⟩ := Limiter.exists_of_select_policy_rules hne
        rw [hselected] at hname
        cases hname
        rw [evaluate_evaluating hphase]
        have hsame : limiter.get_rules name = selected := Limiter.get_rules_of_select hselected
        exact hsame ▸ Evaluation.compares_start scope_identifiers name selected

theorem handle_not_evaluating {failure : Failure} {next : Frame} (hhandle : self.handle failure = some next)
    {evaluation : Evaluation} {limit : Option ℤ} : next.task.phase ≠ .evaluating evaluation limit := by
  unfold Frame.handle at hhandle
  split at hhandle <;> cases hhandle
  · exact self.fail_closed_not_evaluating failure
  · exact self.fail_closed_not_evaluating failure
  · exact nofun
  · exact self.fail_closed_not_evaluating failure
  · exact self.leave_delay_not_evaluating failure
  · exact self.fail_closed_not_evaluating failure
  · exact nofun
  · exact self.leave_delay_not_evaluating _
  · exact nofun
  · exact nofun

/-- Where an evaluation comes from: the lookup of the rules, or its last hit. -/
theorem resume_evaluating {limiter : Limiter} {answer : Answer} {next : Frame} {evaluation : Evaluation}
    {limit : Option ℤ} (hresume : self.resume limiter answer = some next)
    (hphase : next.task.phase = .evaluating evaluation limit) :
    evaluation.Compares (limiter.get_rules evaluation.handler_name) ∨
      ∃ before route_limit result, self.task.phase = .evaluating before route_limit ∧
        evaluation = before.resume result := by
  unfold Frame.resume at hresume
  split at hresume
  case h_3 =>
    cases hresume
    exact Or.inl (proceed_evaluating hphase)
  case h_6 before route_limit result hbefore =>
    cases hresume
    exact Or.inr ⟨before, route_limit, result, hbefore, evaluate_evaluating hphase⟩
  case h_7 =>
    cases hresume
    exact absurd hphase (self.complete_delay_not_evaluating _ _)
  case h_8 =>
    cases hresume
    exact absurd hphase (self.poll_delay_not_evaluating _ _)
  case h_9 =>
    cases hresume
    exact absurd hphase (self.leave_delay_not_evaluating _)
  case h_12 => exact absurd hphase (handle_not_evaluating hresume)
  case h_13 => cases hresume
  all_goals
    cases hresume
    cases hphase

theorem resume_evaluates {limiter : Limiter} {answer : Answer} {next : Frame}
    (h : self.task.Evaluates handler_name rules) (hrules : limiter.get_rules handler_name = rules)
    (hresume : self.resume limiter answer = some next) : next.task.Evaluates handler_name rules := by
  intro evaluation route_limit hphase hname
  rcases resume_evaluating hresume hphase with hcompares | ⟨before, limit, result, hbefore, rfl⟩
  · rwa [hname, hrules] at hcompares
  · exact (h before limit hbefore (before.resume_handler_name result ▸ hname)).resume result

theorem start_evaluates {limiter : Limiter} (hrules : limiter.get_rules handler_name = rules)
    (coordinator : ShutdownCoordinator) (request : Request) :
    (start limiter coordinator request).task.Evaluates handler_name rules := by
  intro evaluation route_limit hphase hname
  unfold start at hphase
  split at hphase
  · cases hphase
  · have hcompares := proceed_evaluating hphase
    rwa [hname, hrules] at hcompares

end Frame

/-- A step that leaves the policy of a handler as it is. -/
def Label.KeepsRules (handler_name : String) (rules : List Rule) : Label → Prop
  | .configure limiter => limiter.get_rules handler_name = rules
  | _ => True

namespace World

/-- Only a change of the configuration changes the configuration. -/
theorem step_limiter {world next : World} {label : Label} (hother : ∀ limiter, label ≠ .configure limiter)
    (hstep : world.step label = some next) : next.limiter = world.limiter := by
  cases label with
  | configure limiter => exact absurd rfl (hother limiter)
  | resume index answer =>
    obtain ⟨_, _, _, _, rfl⟩ := step_resume hstep
    rfl
  | rebind index extensions =>
    obtain ⟨_, _, _, rfl⟩ := step_rebind hstep
    rfl
  | arrive request =>
    cases hstep
    rfl
  | begin_shutdown mode =>
    cases hstep
    rfl

/-- A middleware on which a handler has a fixed policy. -/
structure Serves (world : World) (handler_name : String) (rules : List Rule) : Prop where
  policy : world.limiter.get_rules handler_name = rules
  evaluates : ∀ task ∈ world.tasks, task.Evaluates handler_name rules
  accounted : world.Accounted

theorem init_serves {limiter : Limiter} (hrules : limiter.get_rules handler_name = rules) :
    (init limiter).Serves handler_name rules :=
  ⟨hrules, fun _ htask => absurd htask List.not_mem_nil, init_accounted limiter⟩

theorem Serves.step {world next : World} (h : world.Serves handler_name rules) {label : Label}
    (hkeeps : label.KeepsRules handler_name rules) (hstep : world.step label = some next) :
    next.Serves handler_name rules := by
  have haccounted := h.accounted.step hstep
  cases label with
  | arrive request =>
    cases hstep
    refine ⟨h.policy, List.forall_mem_append.mpr ⟨h.evaluates, List.forall_mem_singleton.mpr ?_⟩, haccounted⟩
    exact Frame.start_evaluates h.policy world.coordinator request
  | resume index answer =>
    obtain ⟨task, frame, htask, hframe, rfl⟩ := step_resume hstep
    refine ⟨h.policy, fun other hother => ?_, haccounted⟩
    rcases List.mem_or_eq_of_mem_set hother with hmem | rfl
    · exact h.evaluates other hmem
    · exact Frame.resume_evaluates (h.evaluates task (List.mem_of_getElem? htask)) h.policy hframe
  | rebind index extensions =>
    obtain ⟨task, htask, happ, rfl⟩ := step_rebind hstep
    refine ⟨h.policy, fun other hother => ?_, haccounted⟩
    rcases List.mem_or_eq_of_mem_set hother with hmem | rfl
    · exact h.evaluates other hmem
    · exact h.evaluates task (List.mem_of_getElem? htask)
  | begin_shutdown mode =>
    cases hstep
    exact ⟨h.policy, h.evaluates, haccounted⟩
  | configure limiter =>
    cases hstep
    exact ⟨hkeeps, h.evaluates, haccounted⟩

/-- What no step of a request changes stays true of it. -/
theorem step_keeps {kept : Task → Prop} {world next : World} {index : Nat} {task : Task}
    (htask : world.tasks[index]? = some task) (h : kept task)
    (hresume : ∀ {self : Frame} {limiter answer next}, kept self.task → self.resume limiter answer = some next →
      kept next.task)
    (hrebind : ∀ {task : Task} {extensions}, kept task → kept { task with extensions }) {label : Label}
    (hstep : world.step label = some next) : ∃ later, next.tasks[index]? = some later ∧ kept later := by
  have hlength := (List.getElem?_eq_some_iff.mp htask).1
  cases label with
  | arrive request =>
    cases hstep
    exact ⟨task, by rw [List.getElem?_append_left hlength, htask], h⟩
  | resume position answer =>
    obtain ⟨other, frame, hother, hframe, rfl⟩ := step_resume hstep
    by_cases hposition : position = index
    · subst hposition
      cases htask.symm.trans hother
      have hsuspended : kept (Frame.mk world.coordinator task).task := h
      exact ⟨frame.task, List.getElem?_set_self hlength, hresume hsuspended hframe⟩
    · exact ⟨task, by rw [List.getElem?_set_ne hposition, htask], h⟩
  | rebind position extensions =>
    obtain ⟨other, hother, happ, rfl⟩ := step_rebind hstep
    by_cases hposition : position = index
    · subst hposition
      cases htask.symm.trans hother
      exact ⟨_, List.getElem?_set_self hlength, hrebind h⟩
    · exact ⟨task, by rw [List.getElem?_set_ne hposition, htask], h⟩
  | begin_shutdown mode =>
    cases hstep
    exact ⟨task, htask, h⟩
  | configure limiter =>
    cases hstep
    exact ⟨task, htask, h⟩

/-- No step brings a request back that was turned away. -/
theorem turnedAway_step {world next : World} {index : Nat} {task : Task} (htask : world.tasks[index]? = some task)
    (h : task.TurnedAway rules) {label : Label} (hstep : world.step label = some next) :
    ∃ later, next.tasks[index]? = some later ∧ later.TurnedAway rules := by
  refine step_keeps htask h (fun hturned hresume => Frame.resume_turnedAway hturned hresume) ?_ hstep
  exact fun hturned => ⟨hturned.uninvoked, hturned.phase⟩

end World

end response_bandwidth_limiter.middleware

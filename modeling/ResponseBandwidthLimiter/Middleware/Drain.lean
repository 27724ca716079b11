import ResponseBandwidthLimiter.Middleware.Accounting

open collections
open response_bandwidth_limiter.base response_bandwidth_limiter.models response_bandwidth_limiter.policy
open response_bandwidth_limiter.limiter response_bandwidth_limiter.shutdown

namespace response_bandwidth_limiter.middleware

/-- Whether the outcome of an evaluation leads into the delay block or the
    limited app call. -/
def admits (selected : Option MatchedPolicy) (route_limit : Option ℤ) : Bool :=
  match selected with
  | none => route_limit.isSome
  | some matched =>
    let decision := matched.rule.action.decide matched.retry_after
    !decision.reject && (decision.pre_delay > 0 || (decision.throttle_rate.or route_limit).isSome)

/-- The request is suspended in `record_hit`, and the hit that comes back is the
    last it waits for and does not stop it. -/
def Task.slips (self : Task) (answer : Answer) : Bool :=
  match self.phase, answer with
  | .evaluating evaluation route_limit, .hit result =>
    match (evaluation.resume result).next with
    | .finish selected => admits selected route_limit
    | _ => false
  | _, _ => false

/-- The step lets a request past a gate it went through before. -/
def World.slips (self : World) (label : Label) : Bool :=
  match label with
  | .resume index answer => self.tasks[index]?.any (fun task => task.slips answer)
  | _ => false

namespace Frame

section Steps

variable {self : Frame}

theorem dispatch_inside (decision : Option PolicyDecision) (route_limit : Option ℤ) :
    (self.dispatch decision route_limit).task.inside =
      ((decision.bind PolicyDecision.throttle_rate).or route_limit).isSome := by
  unfold dispatch
  cases (decision.bind PolicyDecision.throttle_rate).or route_limit with
  | none => rfl
  | some max_rate => rfl

theorem poll_delay_inside (decision : PolicyDecision) (route_limit : Option ℤ) :
    (self.poll_delay decision route_limit).task.inside = true := by
  unfold poll_delay
  split <;> rfl

theorem decide_inside (decision : PolicyDecision) (route_limit : Option ℤ) :
    (self.decide decision route_limit).task.inside =
      (!decision.reject && (decision.pre_delay > 0 || (decision.throttle_rate.or route_limit).isSome)) := by
  unfold decide
  split
  · next hreject => simp [hreject, respond, await, Task.inside, Phase.inside]
  · next hreject =>
    split
    · next hdelay => simp [hreject, hdelay, poll_delay_inside]
    · next hdelay => simp [hreject, hdelay, dispatch_inside]

/-- An evaluation that comes to an end takes its request inside exactly when its
    outcome does. -/
theorem evaluate_inside {evaluation : Evaluation} {selected : Option MatchedPolicy}
    (hnext : evaluation.next = .finish selected) (route_limit : Option ℤ) :
    (self.evaluate evaluation route_limit).task.inside = admits selected route_limit := by
  unfold evaluate
  rw [hnext]
  cases selected with
  | none => exact dispatch_inside none route_limit
  | some matched => exact decide_inside (matched.rule.action.decide matched.retry_after) route_limit

/-- Without a rate the coordinator is not asked. -/
theorem dispatch_coordinator {decision : Option PolicyDecision} {route_limit : Option ℤ}
    (hunlimited : ((decision.bind PolicyDecision.throttle_rate).or route_limit).isSome = false) :
    (self.dispatch decision route_limit).coordinator = self.coordinator := by
  unfold dispatch
  rw [Option.not_isSome_iff_eq_none.mp (Bool.eq_false_iff.mp hunlimited)]
  rfl

theorem decide_coordinator {decision : PolicyDecision} {route_limit : Option ℤ}
    (hstopped : (!decision.reject &&
      (decision.pre_delay > 0 || (decision.throttle_rate.or route_limit).isSome)) = false) :
    (self.decide decision route_limit).coordinator = self.coordinator := by
  unfold decide
  split
  · rfl
  · next hreject =>
    simp only [hreject, Bool.not_false, Bool.true_and, Bool.or_eq_false_iff, decide_eq_false_iff_not] at hstopped
    rw [if_neg hstopped.1]
    exact dispatch_coordinator hstopped.2

theorem evaluate_coordinator {evaluation : Evaluation} {route_limit : Option ℤ}
    (hstopped : ∀ selected, evaluation.next = .finish selected → admits selected route_limit = false) :
    (self.evaluate evaluation route_limit).coordinator = self.coordinator := by
  unfold evaluate
  split
  · next hnext => exact dispatch_coordinator (hstopped none hnext)
  · next matched hnext => exact decide_coordinator (hstopped (some matched) hnext)
  · rfl
  · rfl

/-- The gate holds back every request that arrives at it after shutdown began. -/
theorem proceed_coordinator (hshutdown : self.coordinator.is_shutting_down) (limiter : Limiter)
    (ip_allowed : Bool) : (self.proceed limiter ip_allowed).coordinator = self.coordinator := by
  unfold proceed
  cases self.task.request.handler_names limiter with
  | nil => rfl
  | cons first rest =>
    simp only [hshutdown, Bool.true_and, Bool.or_eq_true, Bool.not_eq_true']
    split
    · rfl
    · next hgate =>
      rw [not_or, Bool.not_eq_true, Bool.not_eq_false] at hgate
      rw [if_pos hgate.2]
      exact dispatch_coordinator hgate.1

theorem start_coordinator {coordinator : ShutdownCoordinator} (hshutdown : coordinator.is_shutting_down)
    (limiter : Limiter) (request : Request) :
    (start limiter coordinator request).coordinator = coordinator := by
  unfold start
  split
  · rfl
  · refine proceed_coordinator ?_ limiter false
    exact hshutdown

theorem fail_closed_coordinator (failure : Failure) :
    (self.fail_closed failure).coordinator = self.coordinator := by
  unfold fail_closed
  split <;> rfl

theorem handle_coordinator (houtside : self.task.inside = false) {failure : Failure} {next : Frame}
    (hhandle : self.handle failure = some next) : next.coordinator = self.coordinator := by
  unfold Frame.handle at hhandle
  unfold Task.inside at houtside
  cases hphase : self.task.phase with
  | checking_blocked =>
    cases hphase ▸ hhandle
    exact fail_closed_coordinator failure
  | checking_allowed =>
    cases hphase ▸ hhandle
    exact fail_closed_coordinator failure
  | responding context =>
    cases context with
    | plain => cases hphase ▸ hhandle; rfl
    | ip_check =>
      cases hphase ▸ hhandle
      exact fail_closed_coordinator failure
    | policy_delay => cases hphase ▸ houtside
  | evaluating evaluation route_limit =>
    cases hphase ▸ hhandle
    exact fail_closed_coordinator failure
  | delaying decision route_limit => cases hphase ▸ houtside
  | cancelling_delay pending => cases hphase ▸ houtside
  | unlimited_app => cases hphase ▸ hhandle; rfl
  | limited_app max_rate original_extensions => cases hphase ▸ houtside
  | finished outcome => cases hphase ▸ hhandle

/-- After shutdown began, a request outside stays outside unless it slips. -/
theorem resume_coordinator (hshutdown : self.coordinator.is_shutting_down)
    (houtside : self.task.inside = false) {answer : Answer} (hstopped : self.task.slips answer = false)
    {limiter : Limiter} {next : Frame} (hresume : self.resume limiter answer = some next) :
    next.coordinator = self.coordinator := by
  unfold Frame.resume at hresume
  split at hresume
  · cases hresume; rfl
  · cases hresume; rfl
  · cases hresume
    exact proceed_coordinator hshutdown limiter _
  · next hphase => simp [Task.inside, Phase.inside, hphase] at houtside
  · cases hresume; rfl
  · next evaluation route_limit result hphase =>
    cases hresume
    apply evaluate_coordinator
    intro selected hnext
    simpa [Task.slips, hphase, hnext] using hstopped
  · next hphase => simp [Task.inside, Phase.inside, hphase] at houtside
  · next hphase => simp [Task.inside, Phase.inside, hphase] at houtside
  · next hphase => simp [Task.inside, Phase.inside, hphase] at houtside
  · cases hresume; rfl
  · next hphase => simp [Task.inside, Phase.inside, hphase] at houtside
  · exact handle_coordinator houtside hresume
  · cases hresume

/-- A request that slips is inside at its next await. -/
theorem slips_inside {answer : Answer} (hslips : self.task.slips answer) (limiter : Limiter) :
    ∃ next, self.resume limiter answer = some next ∧ next.task.inside := by
  unfold Task.slips at hslips
  split at hslips
  · next evaluation route_limit result hphase =>
    split at hslips
    · next selected hnext =>
      refine ⟨self.evaluate (evaluation.resume result) route_limit, ?_, ?_⟩
      · simp [Frame.resume, hphase]
      · rw [evaluate_inside hnext, hslips]
    · cases hslips
  · cases hslips

end Steps

end Frame

namespace World

/-- Shutdown has begun and nothing is in flight. -/
structure Drained (world : World) : Prop where
  accounted : world.Accounted
  shutting_down : world.coordinator.is_shutting_down
  in_flight : world.coordinator.in_flight = 0

theorem Drained.outside {world : World} (h : world.Drained) {task : Task} (htask : task ∈ world.tasks) :
    task.inside = false := by
  have hcount := h.accounted.in_flight.symm.trans h.in_flight
  exact Bool.eq_false_iff.mpr (List.countP_eq_zero.mp hcount task htask)

theorem Drained.keep {world next : World} (h : world.Drained) (hnext : next.Accounted)
    (hcoordinator : next.coordinator = world.coordinator) : next.Drained where
  accounted := hnext
  shutting_down := hcoordinator ▸ h.shutting_down
  in_flight := hcoordinator ▸ h.in_flight

/-- A drained system stays drained over every step that does not slip. -/
theorem Drained.step {world next : World} (h : world.Drained) {label : Label}
    (hstopped : world.slips label = false) (hstep : world.step label = some next) : next.Drained := by
  have hnext := h.accounted.step hstep
  cases label with
  | arrive request =>
    cases hstep
    exact h.keep hnext (Frame.start_coordinator h.shutting_down world.limiter request)
  | resume index answer =>
    obtain ⟨task, frame, htask, hframe, rfl⟩ := step_resume hstep
    have houtside := h.outside (List.mem_of_getElem? htask)
    have htask_stopped : task.slips answer = false := by simpa [slips, htask] using hstopped
    exact h.keep hnext (Frame.resume_coordinator h.shutting_down houtside htask_stopped hframe)
  | rebind index extensions =>
    obtain ⟨task, htask, happ, rfl⟩ := step_rebind hstep
    exact h.keep hnext rfl
  | begin_shutdown mode =>
    cases hstep
    exact ⟨hnext, by simp [ShutdownCoordinator.is_shutting_down],
      (ShutdownCoordinator.begin_shutdown_in_flight _ mode).trans h.in_flight⟩
  | configure limiter =>
    cases hstep
    exact h.keep hnext rfl

/-- A step that slips puts its request in flight. -/
theorem slips_in_flight {world : World} (h : world.Accounted) {label : Label} (hslips : world.slips label) :
    ∃ next, world.step label = some next ∧ next.coordinator.in_flight_count ≠ 0 := by
  cases label with
  | resume index answer =>
    obtain ⟨task, htask, hslips⟩ := (Option.any_eq_true _ _).mp hslips
    have hframe_slips : (Frame.mk world.coordinator task).task.slips answer := hslips
    obtain ⟨frame, hframe, hinside⟩ := Frame.slips_inside hframe_slips world.limiter
    have hstep : world.step (.resume index answer) =
        some { world with coordinator := frame.coordinator, tasks := world.tasks.set index frame.task } := by
      simp only [step, htask, hframe]
    refine ⟨_, hstep, ?_⟩
    have hcount := (h.step hstep).in_flight
    have hindex := (List.getElem?_eq_some_iff.mp htask).1
    have hmem : frame.task ∈ world.tasks.set index frame.task := List.mem_set hindex frame.task
    have hpos : 0 < (world.tasks.set index frame.task).countP Task.inside :=
      List.countP_pos_iff.mpr ⟨frame.task, hmem, hinside⟩
    exact hcount.trans_ne hpos.ne'
  | _ => cases hslips

/-- After a drained wait the count stays zero in every continuation of the run
    exactly when no step lets a request past its gate: one that was suspended in
    `record_hit`, and that nothing stops when its last hit comes back. The gate is
    not asked again there, as it is after the delay. -/
theorem drain_sound_iff {limiter : Limiter} {pre post : List Label} {drained : World} {deadline_passed : Bool}
    (hpre : run limiter pre = some drained) (hbegun : drained.coordinator.is_shutting_down)
    (hdrained : drained.coordinator.wait_until_drained deadline_passed = some true) :
    (∀ steps rest world, post = steps ++ rest → execute step drained steps = some world →
      world.coordinator.in_flight_count = 0 ∧ ∀ task ∈ world.tasks, ¬ task.inside) ↔
    ∀ steps label rest world, post = steps ++ label :: rest → execute step drained steps = some world →
      ¬ world.slips label := by
  have hinit : drained.Drained :=
    ⟨run_accounted hpre, hbegun, ShutdownCoordinator.wait_until_drained_true_iff.mp hdrained⟩
  have haccounted : ∀ {steps world}, execute step drained steps = some world → world.Accounted :=
    fun hsteps => execute_invariant step hinit.accounted (fun _ _ _ h hstep => h.step hstep) hsteps
  constructor
  · intro hquiet steps label rest world hpost hsteps hslips
    obtain ⟨next, hstep, hcount⟩ := slips_in_flight (haccounted hsteps) hslips
    have hnext : execute step drained (steps ++ [label]) = some next :=
      (execute_concat step).mpr ⟨world, hsteps, hstep⟩
    exact hcount (hquiet (steps ++ [label]) rest next (by rw [hpost, List.append_assoc]; rfl) hnext).1
  · intro hstopped steps rest world hpost hsteps
    have hquiet : world.Drained := by
      refine execute_invariant_along step hinit ?_ hsteps
      intro earlier label later s s' hsplit hrun h hstep
      refine h.step (Bool.eq_false_iff.mpr (hstopped earlier label (later ++ rest) s ?_ hrun)) hstep
      rw [hpost, hsplit, List.append_assoc]
      rfl
    exact ⟨hquiet.in_flight, fun task htask => Bool.eq_false_iff.mp (hquiet.outside htask)⟩

/-- A limiter with a rate and a rule for downloads. -/
def download_limiter : Limiter :=
  ⟨OrderedDict.empty.set "download" 1000, OrderedDict.empty.set "download" [.one_per_minute], []⟩

/-- A download counted by the address of its client. -/
def counted_download : Request :=
  { download with scope_identifiers := fun _ _ => .ok (OrderedDict.empty.set "ip" "192.0.2.1") }

def first_hit : SlidingWindowResult where
  hit_count := 1
  oldest_timestamp := some 0
  current_timestamp := 0
  retry_after_timestamp := none

/-- A download waits for its hit while shutdown begins and drains. -/
def drained_download : Option World :=
  run download_limiter [.arrive counted_download, .begin_shutdown .drain]

theorem drained_download_slips :
    ∃ drained, drained_download = some drained ∧
      ¬ ∀ steps rest world, [.resume 0 (.hit first_hit)] = steps ++ rest →
        execute step drained steps = some world →
        world.coordinator.in_flight_count = 0 ∧ ∀ task ∈ world.tasks, ¬ task.inside := by
  have hrun : drained_download = some _ := rfl
  refine ⟨_, hrun, ?_⟩
  rw [drain_sound_iff hrun rfl (show ShutdownCoordinator.wait_until_drained _ false = some true from rfl)]
  intro hstopped
  exact hstopped [] (.resume 0 (.hit first_hit)) [] _ rfl rfl rfl

/-- When the hit comes back the drained server starts the download. -/
theorem drained_download_in_flight :
    ¬ ∀ limiter pre post drained world deadline_passed, run limiter pre = some drained →
      drained.coordinator.is_shutting_down →
      drained.coordinator.wait_until_drained deadline_passed = some true →
      execute step drained post = some world → world.coordinator.in_flight_count = 0 := by
  intro hclaim
  have hzero := hclaim download_limiter [.arrive counted_download, .begin_shutdown .drain]
    [.resume 0 (.hit first_hit)] _ _ false rfl rfl rfl rfl
  exact absurd hzero (by decide)

end World

end response_bandwidth_limiter.middleware

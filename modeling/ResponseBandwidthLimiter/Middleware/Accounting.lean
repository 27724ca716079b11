import ResponseBandwidthLimiter.Collections.Transitions
import ResponseBandwidthLimiter.Middleware.Task

open collections
open response_bandwidth_limiter.models response_bandwidth_limiter.policy
open response_bandwidth_limiter.limiter response_bandwidth_limiter.shutdown

namespace response_bandwidth_limiter.middleware

/-- The awaits of the policy delay block and of the limited app call. -/
def Phase.inside : Phase → Bool
  | .delaying _ _ => true
  | .cancelling_delay _ => true
  | .responding .policy_delay => true
  | .limited_app _ _ => true
  | _ => false

/-- Whether the request is inside one of the two. -/
def Task.inside (self : Task) : Bool := self.phase.inside

/-- What a request in a phase adds to the count of the coordinator. -/
def Task.weight (self : Task) : Nat := if self.inside then 1 else 0

/-- The request has not called the application and is not yet over. -/
def Phase.before_app : Phase → Bool
  | .unlimited_app => false
  | .limited_app _ _ => false
  | .finished _ => false
  | _ => true

/-- The extensions of a request in its phase: untouched before the app is
    called, paced for a limited app, and the original ones afterwards. -/
structure Task.Scoped (task : Task) : Prop where
  unbound : task.phase.before_app → task.extensions = task.request.extensions
  uncalled : task.phase.before_app → ∀ max_rate seen, .app_invoked max_rate seen ∉ task.log
  unlimited : task.phase = .unlimited_app → ∀ max_rate seen, .app_invoked (some max_rate) seen ∉ task.log
  original : ∀ max_rate original_extensions, task.phase = .limited_app max_rate original_extensions →
    original_extensions = task.request.extensions
  paced : ∀ max_rate seen, .app_invoked (some max_rate) seen ∈ task.log →
    seen = task.request.extensions.map Extensions.paced
  restored : ∀ outcome max_rate seen, task.phase = .finished outcome →
    .app_invoked (some max_rate) seen ∈ task.log → task.request.extensions.isSome →
    task.extensions = task.request.extensions

/-- A paced scope offers no way around `send`. -/
theorem Extensions.paced_names {original : Option Extensions} {extensions : Extensions}
    (hpaced : extensions ∈ original.map Extensions.paced) :
    "http.response.pathsend" ∉ extensions.names ∧ "http.response.zerocopysend" ∉ extensions.names := by
  obtain ⟨given, -, rfl⟩ := Option.mem_map.mp hpaced
  simp [Extensions.paced]

namespace Frame

/-- A request that runs before its app call and carries `held` of the count,
    next to the `others`. -/
structure Running (others held : Nat) (frame : Frame) : Prop where
  in_flight : frame.coordinator.in_flight = others + held
  counted : .exited false ∉ frame.task.log
  unbound : frame.task.extensions = frame.task.request.extensions
  uncalled : ∀ max_rate seen, .app_invoked max_rate seen ∉ frame.task.log

/-- A request at an await or at its end. -/
structure Settled (others : Nat) (frame : Frame) : Prop where
  in_flight : frame.coordinator.in_flight = others + frame.task.weight
  counted : .exited false ∉ frame.task.log
  bindings : frame.task.Scoped

section Steps

variable {others held : Nat} {self : Frame}

theorem Settled.running (h : Settled others self) {phase : Phase} (hphase : self.task.phase = phase)
    (hbefore : phase.before_app) : Running others (if phase.inside then 1 else 0) self where
  in_flight := by rw [← hphase]; exact h.in_flight
  counted := h.counted
  unbound := h.bindings.unbound (hphase ▸ hbefore)
  uncalled := h.bindings.uncalled (hphase ▸ hbefore)

theorem Running.note (h : Running others held self) (event : Event)
    (hcounted : event ≠ .exited false) (huncalled : ∀ max_rate seen, event ≠ .app_invoked max_rate seen) :
    Running others held (self.note event) where
  in_flight := h.in_flight
  counted := by
    simp only [Frame.note, List.mem_append, List.mem_singleton, not_or]
    exact ⟨h.counted, Ne.symm hcounted⟩
  unbound := h.unbound
  uncalled max_rate seen := by
    simp only [Frame.note, List.mem_append, List.mem_singleton, not_or]
    exact ⟨h.uncalled max_rate seen, Ne.symm (huncalled max_rate seen)⟩

theorem Running.await (h : Running others held self) (phase : Phase) (hphase : phase.before_app)
    (hheld : Task.weight { self.task with phase } = held) : Settled others (self.await phase) where
  in_flight := by rw [show (self.await phase).task.weight = held from hheld]; exact h.in_flight
  counted := h.counted
  bindings := {
    unbound := fun _ => h.unbound
    uncalled := fun _ => h.uncalled
    unlimited := fun _ max_rate seen => h.uncalled (some max_rate) seen
    original := by
      rintro max_rate original_extensions ⟨⟩
      cases hphase
    paced := fun max_rate seen hcalled => absurd hcalled (h.uncalled (some max_rate) seen)
    restored := fun _ max_rate seen _ hcalled => absurd hcalled (h.uncalled (some max_rate) seen) }

theorem Running.enter_response (h : Running others 0 self) : Running others 1 self.enter_response := by
  have hentered : Running others 1 { self with coordinator := self.coordinator.enter_response } :=
    ⟨by simp [h.in_flight], h.counted, h.unbound, h.uncalled⟩
  exact hentered.note .entered nofun nofun

/-- Inside the block the count is above the guard. -/
theorem Running.exit_response (h : Running others 1 self) : Running others 0 self.exit_response := by
  have hexited : Running others 0 { self with coordinator := self.coordinator.exit_response } :=
    ⟨ShutdownCoordinator.exit_response_in_flight h.in_flight, h.counted, h.unbound, h.uncalled⟩
  exact hexited.note (.exited (self.coordinator.in_flight > 0)) (by simp [h.in_flight]) nofun

theorem Running.respond (h : Running others held self) (response : Response) {context : Context}
    (hheld : (if context = .policy_delay then 1 else 0) = held) :
    Settled others (self.respond response context) :=
  (h.note (.responding response) nofun nofun).await (.responding context) rfl
    (by rw [← hheld]; cases context <;> rfl)

theorem Running.finish (h : Running others 0 self) (outcome : Outcome) : Settled others (self.finish outcome) where
  in_flight := h.in_flight
  counted := h.counted
  bindings := {
    unbound := nofun
    uncalled := nofun
    unlimited := nofun
    original := nofun
    paced := fun max_rate seen hcalled => absurd hcalled (h.uncalled (some max_rate) seen)
    restored := fun _ max_rate seen _ hcalled => absurd hcalled (h.uncalled (some max_rate) seen) }

theorem Running.call_app (h : Running others 0 self) : Settled others self.call_app := by
  have hlimited : ∀ max_rate seen, .app_invoked (some max_rate) seen ∉ self.call_app.task.log := by
    intro max_rate seen
    simpa [Frame.call_app, Frame.note, Frame.await] using h.uncalled (some max_rate) seen
  refine ⟨h.in_flight, ?_, nofun, nofun, fun _ => hlimited, nofun, ?_, nofun⟩
  · simpa [Frame.call_app, Frame.note, Frame.await] using h.counted
  · exact fun max_rate seen hcalled => absurd hcalled (hlimited max_rate seen)

/-- A scope without extensions has nothing to pace. -/
theorem bind_paced_extensions (self : Frame) :
    (if self.task.extensions.isSome then self.bind_extensions (self.task.extensions.map Extensions.paced)
      else self) = self.bind_extensions (self.task.extensions.map Extensions.paced) := by
  obtain ⟨coordinator, request, extensions, phase, log⟩ := self
  cases extensions with
  | none => rfl
  | some extensions => rfl

theorem Running.call_limited_app (h : Running others 0 self) (max_rate : ℤ) :
    Settled others (self.call_limited_app max_rate) := by
  have hentered := h.enter_response
  simp only [Frame.call_limited_app, bind_paced_extensions]
  generalize self.enter_response = entered at hentered
  refine ⟨hentered.in_flight, ?_, nofun, nofun, nofun, ?_, ?_, nofun⟩
  · simpa [Frame.note, Frame.await, Frame.bind_extensions] using hentered.counted
  · rintro max_rate original_extensions ⟨⟩
    exact hentered.unbound
  · intro max_rate seen hcalled
    simp only [Frame.note, Frame.await, Frame.bind_extensions, List.mem_append, List.mem_singleton,
      Event.app_invoked.injEq, Option.some.injEq, hentered.uncalled, false_or] at hcalled
    rw [hcalled.2, hentered.unbound]
    rfl

theorem Settled.leave_app (h : Settled others self) (hphase : self.task.phase = .unlimited_app)
    (outcome : Outcome) : Settled others (self.finish outcome) where
  in_flight := by
    have houtside : self.task.weight = 0 := by simp [Task.weight, Task.inside, Phase.inside, hphase]
    exact h.in_flight.trans (by rw [houtside]; rfl)
  counted := h.counted
  bindings := {
    unbound := nofun
    uncalled := nofun
    unlimited := nofun
    original := nofun
    paced := fun max_rate seen hcalled => absurd hcalled (h.bindings.unlimited hphase max_rate seen)
    restored := fun _ max_rate seen _ hcalled => absurd hcalled (h.bindings.unlimited hphase max_rate seen) }

theorem Settled.leave_limited_app (h : Settled others self) {max_rate : ℤ}
    {original_extensions : Option Extensions}
    (hphase : self.task.phase = .limited_app max_rate original_extensions) (outcome : Outcome) :
    Settled others (self.leave_limited_app original_extensions outcome) := by
  have horiginal := h.bindings.original max_rate original_extensions hphase
  have hinside : self.coordinator.in_flight = others + 1 := by
    simpa [Task.weight, Task.inside, Phase.inside, hphase] using h.in_flight
  have hexited : self.coordinator.exit_response.in_flight = others :=
    ShutdownCoordinator.exit_response_in_flight hinside
  cases original_extensions with
  | none =>
    refine ⟨hexited, ?_, nofun, nofun, nofun, nofun, ?_, ?_⟩
    · simpa [Frame.leave_limited_app, Frame.exit_response, Frame.note, Frame.finish, Frame.await, hinside]
        using h.counted
    · simpa [Frame.leave_limited_app, Frame.exit_response, Frame.note, Frame.finish, Frame.await]
        using h.bindings.paced
    · intro _ _ _ _ _ hset
      rw [show (self.leave_limited_app none outcome).task.request.extensions = none from horiginal.symm] at hset
      cases hset
  | some extensions =>
    refine ⟨hexited, ?_, nofun, nofun, nofun, nofun, ?_, ?_⟩
    · simpa [Frame.leave_limited_app, Frame.bind_extensions, Frame.exit_response, Frame.note, Frame.finish,
        Frame.await, hinside] using h.counted
    · simpa [Frame.leave_limited_app, Frame.bind_extensions, Frame.exit_response, Frame.note, Frame.finish,
        Frame.await] using h.bindings.paced
    · intro _ _ _ _ _ _
      exact horiginal

theorem Running.dispatch (h : Running others 0 self) (decision : Option PolicyDecision)
    (route_limit : Option ℤ) : Settled others (self.dispatch decision route_limit) := by
  unfold Frame.dispatch
  cases (decision.bind PolicyDecision.throttle_rate).or route_limit with
  | none => exact h.call_app
  | some max_rate => exact h.call_limited_app max_rate

theorem Running.poll_delay (h : Running others 1 self) (decision : PolicyDecision) (route_limit : Option ℤ) :
    Settled others (self.poll_delay decision route_limit) := by
  unfold Frame.poll_delay
  split_ifs
  · exact h.await (.cancelling_delay .streaming_aborted_error) rfl rfl
  · exact h.await (.delaying decision route_limit) rfl rfl

theorem Running.leave_delay (h : Running others 1 self) (failure : Failure) :
    Settled others (self.leave_delay failure) := by
  unfold Frame.leave_delay
  split_ifs
  · exact h.exit_response.finish .returned
  · exact h.exit_response.finish (.raised failure)

theorem Running.complete_delay (h : Running others 1 self) (decision : PolicyDecision)
    (route_limit : Option ℤ) : Settled others (self.complete_delay decision route_limit) := by
  unfold Frame.complete_delay
  split_ifs
  · exact h.leave_delay .streaming_aborted_error
  · exact h.respond build_shutdown_response rfl
  · exact h.exit_response.dispatch (some decision) route_limit

theorem Running.decide (h : Running others 0 self) (decision : PolicyDecision) (route_limit : Option ℤ) :
    Settled others (self.decide decision route_limit) := by
  unfold Frame.decide
  split_ifs
  · exact h.respond (build_reject_response decision) rfl
  · exact h.enter_response.poll_delay decision route_limit
  · exact h.dispatch (some decision) route_limit

theorem Running.evaluate (h : Running others 0 self) (evaluation : Evaluation) (route_limit : Option ℤ) :
    Settled others (self.evaluate evaluation route_limit) := by
  unfold Frame.evaluate
  cases evaluation.next with
  | finish selected =>
    cases selected with
    | none => exact h.dispatch none route_limit
    | some matched => exact h.decide (matched.rule.action.decide matched.retry_after) route_limit
  | fail error => exact h.finish (.raised .value_error)
  | record_hit request_key rule_index rule =>
    exact (h.note (.hit_requested request_key evaluation.handler_name rule_index) nofun nofun).await
      (.evaluating evaluation route_limit) rfl rfl

theorem Running.proceed (h : Running others 0 self) (limiter : Limiter) (ip_allowed : Bool) :
    Settled others (self.proceed limiter ip_allowed) := by
  unfold Frame.proceed
  cases self.task.request.handler_names limiter with
  | nil => exact h.call_app
  | cons first rest =>
    simp only
    split
    · exact h.respond build_shutdown_response rfl
    split
    · exact h.dispatch none (limiter.select_route_limit (first :: rest))
    split
    · exact h.respond build_backend_unavailable_response rfl
    · exact h.finish _
    split
    · exact h.dispatch none (limiter.select_route_limit (first :: rest))
    · exact h.evaluate _ (limiter.select_route_limit (first :: rest))

theorem Running.fail_closed (h : Running others 0 self) (failure : Failure) :
    Settled others (self.fail_closed failure) := by
  unfold Frame.fail_closed
  split_ifs
  · exact h.respond build_backend_unavailable_response rfl
  · exact h.finish (.raised failure)

theorem Settled.handle (h : Settled others self) {failure : Failure} {next : Frame}
    (hhandle : self.handle failure = some next) : Settled others next := by
  unfold Frame.handle at hhandle
  cases hphase : self.task.phase with
  | checking_blocked =>
    cases hphase ▸ hhandle
    exact (h.running hphase rfl).fail_closed failure
  | checking_allowed =>
    cases hphase ▸ hhandle
    exact (h.running hphase rfl).fail_closed failure
  | responding context =>
    cases context with
    | plain =>
      cases hphase ▸ hhandle
      exact (h.running hphase rfl).finish (.raised failure)
    | ip_check =>
      cases hphase ▸ hhandle
      exact (h.running hphase rfl).fail_closed failure
    | policy_delay =>
      cases hphase ▸ hhandle
      exact (h.running hphase rfl).leave_delay failure
  | evaluating evaluation route_limit =>
    cases hphase ▸ hhandle
    exact (h.running hphase rfl).fail_closed failure
  | delaying decision route_limit =>
    cases hphase ▸ hhandle
    exact (h.running hphase rfl).await (.cancelling_delay failure) rfl rfl
  | cancelling_delay pending =>
    cases hphase ▸ hhandle
    exact (h.running hphase rfl).leave_delay _
  | unlimited_app =>
    cases hphase ▸ hhandle
    exact h.leave_app hphase (.raised failure)
  | limited_app max_rate original_extensions =>
    cases hphase ▸ hhandle
    exact h.leave_limited_app hphase _
  | finished outcome => cases hphase ▸ hhandle

/-- Whatever an awaited call comes back with, the request stops at its next
    await with the count exact. -/
theorem Settled.resume (h : Settled others self) {limiter : Limiter} {answer : Answer} {next : Frame}
    (hresume : self.resume limiter answer = some next) : Settled others next := by
  unfold Frame.resume at hresume
  split at hresume
  · cases hresume
    exact (h.running ‹_› rfl).respond build_blocked_ip_response rfl
  · next hphase =>
    cases hresume
    exact (h.running hphase rfl).await .checking_allowed rfl rfl
  · cases hresume
    exact (h.running ‹_› rfl).proceed limiter _
  · cases hresume
    exact (h.running ‹_› rfl).exit_response.finish .returned
  · next context hcontext hphase =>
    cases hresume
    cases context with
    | plain => exact (h.running hphase rfl).finish .returned
    | ip_check => exact (h.running hphase rfl).finish .returned
    | policy_delay => exact absurd rfl hcontext
  · cases hresume
    exact (h.running ‹_› rfl).evaluate _ _
  · cases hresume
    exact (h.running ‹_› rfl).complete_delay _ _
  · cases hresume
    exact (h.running ‹_› rfl).poll_delay _ _
  · cases hresume
    exact (h.running ‹_› rfl).leave_delay _
  · cases hresume
    exact h.leave_app ‹_› .returned
  · cases hresume
    exact h.leave_limited_app ‹_› .returned
  · exact h.handle hresume
  · cases hresume

end Steps

theorem start_settled (limiter : Limiter) {coordinator : ShutdownCoordinator} {others : Nat}
    (hothers : coordinator.in_flight = others) (request : Request) :
    Settled others (start limiter coordinator request) := by
  have hrunning : Running others 0 ⟨coordinator, ⟨request, request.extensions, .checking_blocked, []⟩⟩ :=
    ⟨hothers, nofun, rfl, fun _ _ => nofun⟩
  unfold start
  split
  · exact hrunning.await .checking_blocked rfl rfl
  · exact hrunning.proceed limiter false

end Frame

/-- A request for a file on a server that offers to send it by itself. -/
def download : Request where
  client_ip := none
  handler_names _ := ["download"]
  scope_identifiers _ _ := .ok .empty
  extensions := some ⟨0, ["http.response.pathsend", "http.response.push"]⟩

namespace World

/-- The count is exact and no request has lost track of its extensions. -/
structure Accounted (world : World) : Prop where
  in_flight : world.coordinator.in_flight = world.tasks.countP Task.inside
  counted : ∀ task ∈ world.tasks, .exited false ∉ task.log
  bindings : ∀ task ∈ world.tasks, task.Scoped

theorem init_accounted (limiter : Limiter) : (init limiter).Accounted where
  in_flight := rfl
  counted _ htask := absurd htask List.not_mem_nil
  bindings _ htask := absurd htask List.not_mem_nil

/-- The count splits into what one request adds to it and what the others do. -/
theorem Accounted.settled {world : World} (h : world.Accounted) {index : Nat} {task : Task}
    (htask : world.tasks[index]? = some task) :
    ∃ others, Frame.Settled others ⟨world.coordinator, task⟩ ∧
      ∀ task' : Task, (world.tasks.set index task').countP Task.inside = others + task'.weight := by
  obtain ⟨hindex, rfl⟩ := List.getElem?_eq_some_iff.mp htask
  have hmem := List.getElem_mem hindex
  have hweight : world.tasks[index].weight ≤ world.tasks.countP Task.inside := by
    unfold Task.weight
    split_ifs with hinside
    · exact List.countP_pos_iff.mpr ⟨_, hmem, hinside⟩
    · exact Nat.zero_le _
  refine ⟨world.tasks.countP Task.inside - world.tasks[index].weight,
    ⟨?_, h.counted _ hmem, h.bindings _ hmem⟩, ?_⟩
  · have hin_flight := h.in_flight
    simp only
    omega
  · intro task'
    have hset := countP_set Task.inside hindex task'
    unfold Task.weight at *
    omega

theorem Accounted.replace {world : World} (h : world.Accounted) {others index : Nat} {frame : Frame}
    (hframe : Frame.Settled others frame)
    (hcount : (world.tasks.set index frame.task).countP Task.inside = others + frame.task.weight) :
    Accounted { world with coordinator := frame.coordinator, tasks := world.tasks.set index frame.task } where
  in_flight := hframe.in_flight.trans hcount.symm
  counted task htask := by
    obtain htask | rfl := List.mem_or_eq_of_mem_set htask
    · exact h.counted task htask
    · exact hframe.counted
  bindings task htask := by
    obtain htask | rfl := List.mem_or_eq_of_mem_set htask
    · exact h.bindings task htask
    · exact hframe.bindings

/-- An application may bind the extensions of its scope as it likes. -/
theorem rebind_scoped {task : Task} (happ : task.in_app) (h : task.Scoped) (extensions : Option Extensions) :
    Task.Scoped { task with extensions } := by
  obtain ⟨request, old, phase, log⟩ := task
  cases phase with
  | unlimited_app => exact ⟨nofun, nofun, h.unlimited, nofun, h.paced, nofun⟩
  | limited_app max_rate original_extensions => exact ⟨nofun, nofun, nofun, h.original, h.paced, nofun⟩
  | _ => cases happ

theorem Accounted.step {world next : World} (h : world.Accounted) {label : Label}
    (hstep : world.step label = some next) : next.Accounted := by
  cases label with
  | arrive request =>
    cases hstep
    have hstart := Frame.start_settled world.limiter h.in_flight request
    refine ⟨?_, ?_, ?_⟩
    · rw [hstart.in_flight, List.countP_append, List.countP_singleton]
      rfl
    · intro task htask
      obtain htask | rfl := List.mem_append.mp htask |>.imp_right List.mem_singleton.mp
      · exact h.counted task htask
      · exact hstart.counted
    · intro task htask
      obtain htask | rfl := List.mem_append.mp htask |>.imp_right List.mem_singleton.mp
      · exact h.bindings task htask
      · exact hstart.bindings
  | resume index answer =>
    obtain ⟨task, frame, htask, hframe, rfl⟩ := step_resume hstep
    obtain ⟨others, hsettled, hcount⟩ := h.settled htask
    exact h.replace (hsettled.resume hframe) (hcount frame.task)
  | rebind index extensions =>
    obtain ⟨task, htask, happ, rfl⟩ := step_rebind hstep
    obtain ⟨others, hsettled, hcount⟩ := h.settled htask
    have hrebound : Frame.Settled others ⟨world.coordinator, { task with extensions }⟩ :=
      ⟨hsettled.in_flight, hsettled.counted, rebind_scoped happ hsettled.bindings extensions⟩
    exact h.replace hrebound (hcount { task with extensions })
  | begin_shutdown mode =>
    cases hstep
    exact ⟨(ShutdownCoordinator.begin_shutdown_in_flight _ mode).trans h.in_flight, h.counted, h.bindings⟩
  | configure limiter =>
    cases hstep
    exact ⟨h.in_flight, h.counted, h.bindings⟩

theorem run_accounted {limiter : Limiter} {labels : List Label} {world : World}
    (hrun : run limiter labels = some world) : world.Accounted :=
  execute_invariant step (init_accounted limiter) (fun _ _ _ h hstep => h.step hstep) hrun

/-- However requests interleave and end, the count is the number of requests in
    the delay block or the limited app call, every `exit_response` finds its own
    entry in it, and a drained wait means that there are none. A limited app saw
    neither of the extensions that bypass `send`, and once it is over the scope
    has its original extensions back. -/
theorem in_flight_count_exact {limiter : Limiter} {labels : List Label} {world : World}
    (hrun : run limiter labels = some world) :
    world.coordinator.in_flight_count = world.tasks.countP Task.inside ∧
    (∀ task ∈ world.tasks, .exited false ∉ task.log) ∧
    (∀ deadline_passed, world.coordinator.wait_until_drained deadline_passed = some true ↔
      ∀ task ∈ world.tasks, ¬ task.inside) ∧
    ∀ task ∈ world.tasks, ∀ max_rate seen, .app_invoked (some max_rate) seen ∈ task.log →
      seen = task.request.extensions.map Extensions.paced ∧
      (∀ extensions ∈ seen, "http.response.pathsend" ∉ extensions.names ∧
        "http.response.zerocopysend" ∉ extensions.names) ∧
      (∀ outcome, task.phase = .finished outcome → task.request.extensions.isSome →
        task.extensions = task.request.extensions) := by
  have h := run_accounted hrun
  refine ⟨h.in_flight, h.counted, fun deadline_passed => ?_, fun task htask max_rate seen hcalled => ?_⟩
  · rw [ShutdownCoordinator.wait_until_drained_true_iff, h.in_flight, List.countP_eq_zero]
  · have hbindings := h.bindings task htask
    have hpaced := hbindings.paced max_rate seen hcalled
    refine ⟨hpaced, fun extensions hseen => ?_, fun outcome hphase hset => ?_⟩
    · exact Extensions.paced_names (hpaced ▸ hseen)
    · exact hbindings.restored outcome max_rate seen hphase hcalled hset

/-- Two downloads; the app of the first drops its extensions and is cancelled. -/
def two_downloads : Option World :=
  run { Limiter.init with route_limits := OrderedDict.empty.set "download" 1000 }
    [.arrive download, .arrive download, .begin_shutdown .drain, .rebind 0 none,
      .resume 0 (.raised .cancelled_error)]

theorem two_downloads_exact :
    ∃ world, two_downloads = some world ∧ world.tasks.countP Task.inside = 1 ∧
      world.coordinator.in_flight_count = 1 ∧ ∀ task ∈ world.tasks, .exited false ∉ task.log := by
  have hinside : two_downloads.map (fun world => world.tasks.countP Task.inside) = some 1 := rfl
  obtain ⟨world, hrun, hinside⟩ := Option.map_eq_some_iff.mp hinside
  have hexact := in_flight_count_exact hrun
  exact ⟨world, hrun, hinside, hexact.1.trans hinside, hexact.2.1⟩

end World

end response_bandwidth_limiter.middleware

import ResponseBandwidthLimiter.Middleware.RequestGate

open collections
open response_bandwidth_limiter.limiter response_bandwidth_limiter.shutdown

namespace response_bandwidth_limiter.middleware

/-- A step that cancels no request: what an await comes back with is what its
    request may meet. -/
def Label.expected (world : World) : Label → Bool
  | .resume index answer => world.tasks[index]?.all (fun task => task.phase.expects answer)
  | _ => true

/-- A request and what its own moments make of it. The bindings of its scope may
    differ once the application has it. -/
structure Task.Matches (task : Task) (frame : Frame) : Prop where
  request : frame.task.request = task.request
  phase : frame.task.phase = task.phase
  log : frame.task.log = task.log
  extensions : frame.task.extensions = task.extensions ∨ task.in_app ∨ ∃ outcome, task.phase = .finished outcome

/-- A request of a run is what its own moments made of it. -/
def Task.Lived (task : Task) : Prop :=
  ∃ limiter coordinator moments final,
    execute Frame.advance (.start limiter coordinator task.request) moments = some final ∧ task.Matches final

namespace Frame

theorem matches_self (frame : Frame) : frame.task.Matches frame := ⟨rfl, rfl, rfl, Or.inl rfl⟩

theorem finish_matches {first second : Frame} (h : first.task.Matches second) (outcome : Outcome) :
    (first.finish outcome).task.Matches (second.finish outcome) :=
  ⟨h.request, rfl, h.log, Or.inr (Or.inr ⟨outcome, rfl⟩)⟩

theorem leave_limited_app_matches {first second : Frame} (h : first.task.Matches second)
    (hcoordinator : second.coordinator = first.coordinator) (original_extensions : Option Extensions)
    (outcome : Outcome) :
    (first.leave_limited_app original_extensions outcome).task.Matches
      (second.leave_limited_app original_extensions outcome) := by
  have hlog : second.task.log ++ [Event.exited (second.coordinator.in_flight > 0)] =
      first.task.log ++ [Event.exited (first.coordinator.in_flight > 0)] := by rw [h.log, hcoordinator]
  unfold leave_limited_app
  cases original_extensions with
  | none => exact ⟨h.request, rfl, hlog, Or.inr (Or.inr ⟨outcome, rfl⟩)⟩
  | some extensions => exact ⟨h.request, rfl, hlog, Or.inr (Or.inr ⟨outcome, rfl⟩)⟩

/-- What an await brings to a request it brings to what the moments made of it. -/
theorem resume_matches {limiter : Limiter} {coordinator : ShutdownCoordinator} {task : Task} {other frame : Frame}
    {answer : Answer} (h : task.Matches other) (hexpects : task.phase.expects answer)
    (hresume : Frame.resume limiter ⟨coordinator, task⟩ answer = some frame) :
    ∃ next, other.advance ⟨limiter, coordinator, answer⟩ = some next ∧ frame.task.Matches next := by
  have hadvance : other.advance ⟨limiter, coordinator, answer⟩ =
      Frame.resume limiter ⟨coordinator, other.task⟩ answer := by
    rw [advance, h.phase, if_pos hexpects]
  rw [hadvance]
  have hbound : (⟨coordinator, task⟩ : Frame).task.Matches ⟨coordinator, other.task⟩ :=
    ⟨h.request, h.phase, h.log, h.extensions⟩
  rcases h.extensions with hsame | happ | ⟨outcome, hphase⟩
  · have htask : other.task = task := by
      obtain ⟨request, extensions, phase, log⟩ := task
      obtain ⟨_, ⟨_, _, _, _⟩⟩ := other
      cases h.request
      cases h.phase
      cases h.log
      cases hsame
      rfl
    rw [htask]
    exact ⟨frame, hresume, frame.matches_self⟩
  · have hphase := h.phase
    unfold Task.in_app at happ
    split at happ
    · next hunlimited =>
      rw [hunlimited] at hphase
      cases answer <;> simp only [resume, handle, hunlimited, Option.some.injEq, reduceCtorEq] at hresume
      · exact ⟨_, by simp only [resume, hphase], hresume ▸ finish_matches hbound _⟩
      · exact ⟨_, by simp only [resume, handle, hphase], hresume ▸ finish_matches hbound _⟩
    · next max_rate original_extensions hlimited =>
      rw [hlimited] at hphase
      cases answer <;> simp only [resume, handle, hlimited, Option.some.injEq, reduceCtorEq] at hresume
      · exact ⟨_, by simp only [resume, hphase], hresume ▸ leave_limited_app_matches hbound rfl _ _⟩
      · exact ⟨_, by simp only [resume, handle, hphase], hresume ▸ leave_limited_app_matches hbound rfl _ _⟩
    · cases happ
  · cases answer <;> simp [resume, handle, hphase] at hresume

end Frame

namespace World

/-- All requests of a run are what their own moments made of them. -/
def Lived (world : World) : Prop := ∀ task ∈ world.tasks, task.Lived

theorem Lived.step {world next : World} (h : world.Lived) {label : Label}
    (hexpected : label.expected world) (hstep : world.step label = some next) : next.Lived := by
  cases label with
  | arrive request =>
    cases hstep
    refine List.forall_mem_append.mpr ⟨h, List.forall_mem_singleton.mpr ?_⟩
    refine ⟨world.limiter, world.coordinator, [], Frame.start world.limiter world.coordinator request, ?_, ?_⟩
    · rw [Frame.start_request]
      rfl
    · exact Frame.matches_self _
  | resume index answer =>
    obtain ⟨task, frame, htask, hframe, rfl⟩ := step_resume hstep
    have hexpects : task.phase.expects answer := by simpa [Label.expected, htask] using hexpected
    obtain ⟨limiter, coordinator, moments, final, hrun, hmatches⟩ := h task (List.mem_of_getElem? htask)
    obtain ⟨last, hlast, hnext⟩ := Frame.resume_matches hmatches hexpects hframe
    intro other hother
    rcases List.mem_or_eq_of_mem_set hother with hmem | rfl
    · exact h other hmem
    · refine ⟨limiter, coordinator, moments ++ [⟨world.limiter, world.coordinator, answer⟩], last, ?_, hnext⟩
      rw [Frame.resume_request hframe]
      exact (execute_concat Frame.advance).mpr ⟨final, hrun, hlast⟩
  | rebind index extensions =>
    obtain ⟨task, htask, happ, rfl⟩ := step_rebind hstep
    obtain ⟨limiter, coordinator, moments, final, hrun, hmatches⟩ := h task (List.mem_of_getElem? htask)
    intro other hother
    rcases List.mem_or_eq_of_mem_set hother with hmem | rfl
    · exact h other hmem
    · exact ⟨limiter, coordinator, moments, final, hrun, hmatches.request, hmatches.phase, hmatches.log,
        Or.inr (Or.inl happ)⟩
  | begin_shutdown mode =>
    cases hstep
    exact h
  | configure limiter =>
    cases hstep
    exact h

/-- In a run that cancels no request, whatever else goes on, the ruling on each
    request is the one its own moments tell. -/
theorem run_ruled {limiter : Limiter} {labels : List Label} {world : World} (hrun : run limiter labels = some world)
    (hexpected : ∀ before label rest middle, labels = before ++ label :: rest →
      run limiter before = some middle → label.expected middle) :
    ∀ task ∈ world.tasks, task.request.Resolves → ∃ found_limiter coordinator moments,
      Frame.Ruled (ruling task.request found_limiter coordinator moments)
        (requested_hits task.request found_limiter coordinator moments) ⟨world.coordinator, task⟩ := by
  have hinit : (init limiter).Lived := fun _ hmem => absurd hmem List.not_mem_nil
  have hlived : world.Lived := by
    refine execute_invariant_along World.step hinit ?_ hrun
    intro before label rest middle next hsplit hbefore h hstep
    exact h.step (hexpected before label rest middle hsplit hbefore) hstep
  intro task hmem hresolves
  obtain ⟨found_limiter, coordinator, moments, final, hfinal, hmatches⟩ := hlived task hmem
  have hruled := Frame.start_ruled hresolves hfinal
  refine ⟨found_limiter, coordinator, moments, hmatches.phase ▸ hruled.shows, ?_, ?_, ?_⟩
  · rw [← hruled.invocations, Task.invocations, Task.invocations, hmatches.log]
  · rw [← hruled.responses, Task.responses, Task.responses, hmatches.log]
  · rw [← hruled.hits, Task.hits, Task.hits, hmatches.log]

end World

end response_bandwidth_limiter.middleware

import ResponseBandwidthLimiter.SignalDispatch

open collections
open response_bandwidth_limiter.shutdown response_bandwidth_limiter.signals

namespace response_bandwidth_limiter.middleware

inductive LifespanMessage where
  | startup
  | shutdown
  | other
  deriving DecidableEq, Repr

/-- A middleware as its lifespan sees it: its own signal handler, and the storages
    that the limiter on the application's state and its policy evaluator close. -/
structure LifespanMiddleware where
  install_signal_handlers : Bool
  signal_handler : Nat
  limiter_storage : Option Nat
  evaluator_storage : Option Nat
  deriving DecidableEq, Repr

namespace LifespanMiddleware

variable (self : LifespanMiddleware) (main_thread : Bool)

def install_signal_handler (process : Process) : Option Process :=
  if main_thread then process.perform (.install self.signal_handler) else some process

/-- None where `signal.signal` raises. -/
def restore_signal_handler (process : Process) : Option Process :=
  if main_thread then ((ShutdownSignalHandler.restore self.signal_handler).run process).map Prod.snd
  else some process

def receive_with_signal (message : LifespanMessage) (process : Process) : Option Process :=
  if self.install_signal_handlers ∧ message = .startup then self.install_signal_handler main_thread process
  else some process

/-- The storage that is closed at the end. -/
def closing : Option Nat := self.limiter_storage.or self.evaluator_storage

end LifespanMiddleware

/-- The middlewares of an application, the outermost first. Each has made its own
    signal handler. -/
structure MiddlewareStack where
  middlewares : List LifespanMiddleware
  nodup : (middlewares.map LifespanMiddleware.signal_handler).Nodup

/-- A server process and the lifespan that runs in it: the middlewares that await
    the application, the outermost first, and the storages closed so far. -/
structure Server where
  main_thread : Bool
  process : Process
  inside : List LifespanMiddleware
  closed : List Nat

/-- What happens in a server. What receives a message is below the given number of
    middlewares. SIGINT finds the main thread idle, and the outcomes tell which
    functions of others raise. -/
inductive ServerLabel where
  | start (stack : MiddlewareStack)
  | receive (depth : Nat) (message : LifespanMessage)
  | leave
  | call (coordinator : Nat) (method : CoordinatorMethod)
  | sigint (outcomes : List Bool)

namespace Server

def init (main_thread : Bool) (shutdown_coordinator : Nat → Nat) (disposition : SigintHandler) : Server :=
  ⟨main_thread, .init shutdown_coordinator (some disposition), [], []⟩

/-- SIGINT with everything that its handler does. -/
def handle_signal (process : Process) (outcomes : List Bool) : Option Process :=
  match (MainThread.step ⟨process, []⟩ .sigint).bind
      (fun thread => execute (Thread.proceed SigintHandler.code) thread outcomes) with
  | some ⟨process, []⟩ => some process
  | _ => none

/-- A message on its way in, through one `receive_with_signal` after the other. -/
def receive_with_signal (main_thread : Bool) (message : LifespanMessage) (process : Process)
    (middlewares : List LifespanMiddleware) : Option Process :=
  middlewares.foldlM (fun process (middleware : LifespanMiddleware) =>
    middleware.receive_with_signal main_thread message process) process

/-- The `finally` of the innermost `_handle_lifespan`. -/
def leave (self : Server) (middleware : LifespanMiddleware) : Server :=
  let inside := self.inside.dropLast
  let closed := self.closed ++ middleware.closing.toList
  if middleware.install_signal_handlers then
    match middleware.restore_signal_handler self.main_thread self.process with
    | some process => { self with process, inside, closed }
    | none => { self with inside }
  else { self with inside, closed }

def step (self : Server) : ServerLabel → Option Server
  | .start stack => if self.inside.isEmpty then some { self with inside := stack.middlewares } else none
  | .receive depth message =>
    if depth ≤ self.inside.length then
      (receive_with_signal self.main_thread message self.process (self.inside.take depth)).map
        (fun process => { self with process })
    else none
  | .leave => self.inside.getLast?.map self.leave
  | .call coordinator method =>
    (self.process.perform (.call coordinator method)).map (fun process => { self with process })
  | .sigint outcomes => (handle_signal self.process outcomes).map (fun process => { self with process })

end Server

/-- What the signal handlers of a server are for: of the middlewares that are
    inside, those that were started hear every SIGINT, in their coordinators. -/
structure Audience where
  coordinators : Nat → ShutdownCoordinator
  inside : List LifespanMiddleware
  started : Nat
  closed : List Nat

/-- The signal handlers of those that install them. -/
def listening (middlewares : List LifespanMiddleware) : List Nat :=
  (middlewares.filter LifespanMiddleware.install_signal_handlers).map LifespanMiddleware.signal_handler

namespace Audience

def init : Audience := ⟨fun _ => .init, [], 0, []⟩

def listeners (self : Audience) : List Nat := listening (self.inside.take self.started)

/-- How often a coordinator hears a SIGINT. -/
def hears (self : Audience) (shutdown_coordinator : Nat → Nat) (coordinator : Nat) : Nat :=
  self.listeners.countP (fun handler => shutdown_coordinator handler = coordinator)

def step (main_thread : Bool) (shutdown_coordinator : Nat → Nat) (self : Audience) : ServerLabel → Option Audience
  | .start stack =>
    if self.inside.isEmpty then some { self with inside := stack.middlewares, started := 0 } else none
  | .receive depth message =>
    if depth ≤ self.inside.length then
      if main_thread ∧ message = .startup then some { self with started := max self.started depth } else some self
    else none
  | .leave =>
    self.inside.getLast?.map (fun middleware =>
      { self with
        inside := self.inside.dropLast
        started := min self.started (self.inside.length - 1)
        closed := self.closed ++ middleware.closing.toList })
  | .call coordinator method =>
    some { self with
      coordinators := Function.update self.coordinators coordinator (method.effect (self.coordinators coordinator)) }
  | .sigint _ =>
    some { self with
      coordinators := fun coordinator =>
        ShutdownCoordinator.escalate^[self.hears shutdown_coordinator coordinator] (self.coordinators coordinator) }

end Audience

section Listening

variable {middlewares : List LifespanMiddleware} {middleware : LifespanMiddleware}

theorem listening_append (first second : List LifespanMiddleware) :
    listening (first ++ second) = listening first ++ listening second := by
  simp only [listening, List.filter_append, List.map_append]

theorem listening_singleton_of_installs (h : middleware.install_signal_handlers = true) :
    listening [middleware] = [middleware.signal_handler] := by
  simp [listening, h]

theorem listening_singleton_of_not (h : middleware.install_signal_handlers = false) :
    listening [middleware] = [] := by
  simp [listening, h]

theorem mem_listening {handler : Nat} (hmem : handler ∈ listening middlewares) :
    handler ∈ middlewares.map LifespanMiddleware.signal_handler := by
  obtain ⟨middleware, hmiddleware, rfl⟩ := List.mem_map.mp hmem
  exact List.mem_map_of_mem (List.mem_filter.mp hmiddleware).1

/-- Signal handlers are not shared. -/
theorem not_mem_listening (hown : ((middlewares ++ [middleware]).map LifespanMiddleware.signal_handler).Nodup)
    (count : Nat) : middleware.signal_handler ∉ listening (middlewares.take count) := by
  intro hmem
  rw [List.map_append] at hown
  have hearlier := List.map_subset _ (List.take_subset count middlewares) (mem_listening hmem)
  exact (List.nodup_append.mp hown).2.2 _ hearlier _ (List.mem_singleton.mpr rfl) rfl

theorem listening_mem (h : middleware.install_signal_handlers = true) (hmem : middleware ∈ middlewares) :
    middleware.signal_handler ∈ listening middlewares :=
  List.mem_map_of_mem (List.mem_filter.mpr ⟨hmem, h⟩)

end Listening

section Startup

variable {disposition : SigintHandler} {middlewares : List LifespanMiddleware} {process : Process}

/-- The startup message at one middleware, which installs its handler over those
    that are installed already. -/
theorem startup_received_next (hother : ∀ handler, disposition ≠ .handle_sigint handler)
    (hown : (middlewares.map LifespanMiddleware.signal_handler).Nodup) {started depth : Nat}
    (hdepth : depth < middlewares.length)
    (h : Layered (some disposition) (listening (middlewares.take (max started depth))).reverse process) :
    ∃ next, middlewares[depth].receive_with_signal true .startup process = some next ∧
      Layered (some disposition) (listening (middlewares.take (max started (depth + 1)))).reverse next ∧
      next.coordinators = process.coordinators ∧
      ∀ handler, (next.handlers handler).shutdown_coordinator = (process.handlers handler).shutdown_coordinator := by
  have htake := List.take_succ_eq_append_getElem hdepth
  cases hinstalls : middlewares[depth].install_signal_handlers with
  | false =>
    have hskip : middlewares[depth].receive_with_signal true .startup process = some process := by
      simp [LifespanMiddleware.receive_with_signal, hinstalls]
    refine ⟨process, hskip, ?_, rfl, fun _ => rfl⟩
    rcases Nat.lt_or_ge depth started with hlt | hle
    · rw [Nat.max_eq_left (Nat.le_of_lt hlt)] at h
      rwa [Nat.max_eq_left hlt]
    · rw [Nat.max_eq_right hle] at h
      rw [Nat.max_eq_right (Nat.le_succ_of_le hle), htake, listening_append, listening_singleton_of_not hinstalls,
        List.append_nil]
      exact h
  | true =>
    have hperform : middlewares[depth].receive_with_signal true .startup process =
        process.perform (.install middlewares[depth].signal_handler) := by
      simp [LifespanMiddleware.receive_with_signal, LifespanMiddleware.install_signal_handler, hinstalls]
    rw [hperform]
    rcases Nat.lt_or_ge depth started with hlt | hle
    · rw [Nat.max_eq_left (Nat.le_of_lt hlt)] at h
      have hmem : middlewares[depth] ∈ middlewares.take started :=
        List.mem_take_iff_getElem.mpr ⟨depth, by omega, rfl⟩
      refine ⟨process, h.install_again (List.mem_reverse.mpr (listening_mem hinstalls hmem)), ?_, rfl, fun _ => rfl⟩
      rwa [Nat.max_eq_left hlt]
    · rw [Nat.max_eq_right hle] at h
      have hnew : middlewares[depth].signal_handler ∉ (listening (middlewares.take depth)).reverse := by
        rw [List.mem_reverse]
        have htaken : ((middlewares.take depth ++ [middlewares[depth]]).map
            LifespanMiddleware.signal_handler).Nodup := by
          rw [← htake, List.map_take]
          exact hown.take
        have hfresh := not_mem_listening htaken depth
        rwa [List.take_take, Nat.min_self] at hfresh
      obtain ⟨hinstall, hnext⟩ := h.install hother hnew
      refine ⟨_, hinstall, ?_, rfl, process.installed_shutdown_coordinator _⟩
      rw [Nat.max_eq_right (Nat.le_succ_of_le hle), htake, listening_append,
        listening_singleton_of_installs hinstalls, List.reverse_append]
      exact hnext

/-- The startup message installs the handlers of all that it passes, from the
    outermost to the innermost. -/
theorem startup_received (hother : ∀ handler, disposition ≠ .handle_sigint handler)
    (hown : (middlewares.map LifespanMiddleware.signal_handler).Nodup) {started depth : Nat}
    (hdepth : depth ≤ middlewares.length)
    (h : Layered (some disposition) (listening (middlewares.take started)).reverse process) :
    ∃ next, Server.receive_with_signal true .startup process (middlewares.take depth) = some next ∧
      Layered (some disposition) (listening (middlewares.take (max started depth))).reverse next ∧
      next.coordinators = process.coordinators ∧
      ∀ handler, (next.handlers handler).shutdown_coordinator = (process.handlers handler).shutdown_coordinator := by
  induction depth with
  | zero =>
    rw [Nat.max_zero]
    exact ⟨process, rfl, h, rfl, fun _ => rfl⟩
  | succ depth ih =>
    obtain ⟨middle, hmiddle, hlayered, hcoordinators, hhandlers⟩ := ih (Nat.le_of_succ_le hdepth)
    obtain ⟨next, hnext, hinstalled, hsame, hsames⟩ := startup_received_next hother hown hdepth hlayered
    refine ⟨next, ?_, hinstalled, hsame.trans hcoordinators,
      fun handler => (hsames handler).trans (hhandlers handler)⟩
    rw [List.take_succ_eq_append_getElem hdepth, Server.receive_with_signal, List.foldlM_append]
    exact Option.bind_eq_some_iff.mpr ⟨middle, hmiddle, by simp [hnext]⟩

end Startup

namespace Server

/-- A server whose signal handlers do what they are for. -/
structure Delivers (main_thread : Bool) (shutdown_coordinator : Nat → Nat) (disposition : SigintHandler)
    (server : Server) (audience : Audience) : Prop where
  thread : server.main_thread = main_thread
  inside : server.inside = audience.inside
  closed : server.closed = audience.closed
  coordinators : server.process.coordinators = audience.coordinators
  started : audience.started ≤ audience.inside.length
  off_main_thread : main_thread = false → audience.started = 0
  own : (audience.inside.map LifespanMiddleware.signal_handler).Nodup
  layered : Layered (some disposition) audience.listeners.reverse server.process
  known : ∀ handler, (server.process.handlers handler).shutdown_coordinator = shutdown_coordinator handler

section Steps

variable {main_thread : Bool} {shutdown_coordinator : Nat → Nat} {disposition : SigintHandler} {server next : Server}
  {audience : Audience}

/-- SIGINT is heard by those that were started, and does nothing else. -/
theorem handle_signal_heard (hother : ∀ handler, disposition ≠ .handle_sigint handler) {stack : List Nat}
    {process after : Process} (h : Layered (some disposition) stack process) {outcomes : List Bool}
    (hsignal : handle_signal process outcomes = some after) : after = process.heard stack := by
  unfold handle_signal at hsignal
  split at hsignal
  · next final hfinal =>
    cases hsignal
    obtain ⟨thread, hthread, hexecute⟩ := Option.bind_eq_some_iff.mp hfinal
    cases stack with
    | nil =>
      have hsigint : process.sigint = some disposition := h.stacked
      cases disposition with
      | sig_dfl =>
        simp only [MainThread.step, hsigint] at hthread
        cases hthread
      | sig_ign =>
        simp only [MainThread.step, hsigint] at hthread
        cases hthread
        exact Quiet.execute (fun _ hframe => absurd hframe List.not_mem_nil) hexecute
      | handle_sigint handler => exact absurd rfl (hother handler)
      | callable name =>
        simp only [MainThread.step, hsigint] at hthread
        cases hthread
        exact Quiet.execute (List.forall_mem_singleton.mpr (.callable name)) hexecute
    | cons top stack =>
      simp only [MainThread.step, h.stacked.1] at hthread
      cases hthread
      exact h.stacked.heard h.nodup hother (fun _ hframe => absurd hframe List.not_mem_nil) hexecute rfl
  · cases hsignal

theorem Delivers.start (h : Delivers main_thread shutdown_coordinator disposition server audience)
    (hempty : audience.inside = []) (stack : MiddlewareStack) :
    Delivers main_thread shutdown_coordinator disposition { server with inside := stack.middlewares }
      { audience with inside := stack.middlewares, started := 0 } := by
  refine ⟨h.thread, rfl, h.closed, h.coordinators, Nat.zero_le _, fun _ => rfl, stack.nodup, ?_, h.known⟩
  have hlayered := h.layered
  simp only [Audience.listeners, hempty, List.take_nil] at hlayered
  exact hlayered

theorem Delivers.receive (h : Delivers main_thread shutdown_coordinator disposition server audience)
    (hother : ∀ handler, disposition ≠ .handle_sigint handler) {depth : Nat}
    (hdepth : depth ≤ audience.inside.length)
    (message : LifespanMessage) :
    ∃ process, receive_with_signal server.main_thread message server.process (server.inside.take depth) =
        some process ∧
      Delivers main_thread shutdown_coordinator disposition { server with process }
        (if main_thread ∧ message = .startup then { audience with started := max audience.started depth }
          else audience) := by
  obtain ⟨rfl, hinside, hclosed, hcoordinators, hstarted, hoff, hown, hlayered, hknown⟩ := h
  split
  · next hstartup =>
    obtain ⟨hmain, rfl⟩ := hstartup
    obtain ⟨process, hreceived, hnext, hsame, hhandlers⟩ := startup_received hother hown hdepth hlayered
    refine ⟨process, ?_, rfl, hinside, hclosed, hsame.trans hcoordinators, ?_, ?_, hown, hnext, ?_⟩
    · rw [hmain, hinside]
      exact hreceived
    · exact Nat.max_le.mpr ⟨hstarted, hdepth⟩
    · exact fun hfalse => absurd (hmain.symm.trans hfalse) (by decide)
    · exact fun handler => (hhandlers handler).trans (hknown handler)
  · next hnot =>
    refine ⟨server.process, ?_, rfl, hinside, hclosed, hcoordinators, hstarted, hoff, hown, hlayered, hknown⟩
    have hpass : ∀ middleware : LifespanMiddleware,
        middleware.receive_with_signal server.main_thread message server.process = some server.process := by
      intro middleware
      unfold LifespanMiddleware.receive_with_signal LifespanMiddleware.install_signal_handler
      split_ifs with hstartup hmain
      · exact absurd ⟨hmain, hstartup.2⟩ hnot
      · rfl
      · rfl
    unfold receive_with_signal
    induction server.inside.take depth with
    | nil => rfl
    | cons middleware below ih =>
      rw [List.foldlM_cons, hpass]
      exact ih

/-- The signal handlers after the innermost middleware has left. -/
theorem restored_left {init : List LifespanMiddleware} {middleware : LifespanMiddleware} {started : Nat}
    {process : Process} (hstarted : started ≤ init.length + 1) (hoff : main_thread = false → started = 0)
    (hown : ((init ++ [middleware]).map LifespanMiddleware.signal_handler).Nodup)
    (h : Layered (some disposition) (listening ((init ++ [middleware]).take started)).reverse process) :
    ∃ restored,
      (if middleware.install_signal_handlers then middleware.restore_signal_handler main_thread process
        else some process) = some restored ∧
      Layered (some disposition) (listening (init.take (min started init.length))).reverse restored ∧
      restored.coordinators = process.coordinators ∧ ∀ handler,
        (restored.handlers handler).shutdown_coordinator = (process.handlers handler).shutdown_coordinator := by
  rcases Nat.lt_or_eq_of_le hstarted with hlt | rfl
  · have hle : started ≤ init.length := by omega
    rw [List.take_append_of_le_length hle] at h
    refine ⟨process, ?_, by rwa [Nat.min_eq_left hle], rfl, fun _ => rfl⟩
    have hnew : middleware.signal_handler ∉ (listening (init.take started)).reverse := by
      rw [List.mem_reverse]
      exact not_mem_listening hown started
    unfold LifespanMiddleware.restore_signal_handler
    rw [h.restore_idle hnew]
    split_ifs <;> rfl
  · have hmain : main_thread = true := by
      cases main_thread with
      | true => rfl
      | false => cases hoff rfl
    have hall : (init ++ [middleware]).take (init.length + 1) = init ++ [middleware] :=
      List.take_of_length_le (by simp)
    rw [hall, listening_append] at h
    have hleft : init.take (min (init.length + 1) init.length) = init := List.take_of_length_le (by omega)
    rw [hleft]
    cases hinstalls : middleware.install_signal_handlers with
    | false =>
      rw [listening_singleton_of_not hinstalls, List.append_nil] at h
      exact ⟨process, rfl, h, rfl, fun _ => rfl⟩
    | true =>
      rw [listening_singleton_of_installs hinstalls, List.reverse_append] at h
      obtain ⟨original_handler, hrun, hnext⟩ := h.restore
      refine ⟨_, ?_, hnext, rfl, fun handler => process.restored_shutdown_coordinator _ _ _⟩
      simp [LifespanMiddleware.restore_signal_handler, hmain, hrun]

theorem leave_of_restored {middleware : LifespanMiddleware} {restored : Process}
    (h : (if middleware.install_signal_handlers then
        middleware.restore_signal_handler server.main_thread server.process
      else some server.process) = some restored) :
    server.leave middleware =
      ⟨server.main_thread, restored, server.inside.dropLast, server.closed ++ middleware.closing.toList⟩ := by
  unfold leave
  split_ifs at h ⊢
  · rw [h]
  · cases h
    rfl

theorem Delivers.leave (h : Delivers main_thread shutdown_coordinator disposition server audience)
    {middleware : LifespanMiddleware} (hlast : audience.inside.getLast? = some middleware) :
    Delivers main_thread shutdown_coordinator disposition (server.leave middleware)
      { audience with
        inside := audience.inside.dropLast
        started := min audience.started (audience.inside.length - 1)
        closed := audience.closed ++ middleware.closing.toList } := by
  obtain ⟨coordinators, inside, started, closed⟩ := audience
  obtain ⟨init, rfl⟩ := List.getLast?_eq_some_iff.mp hlast
  obtain ⟨rfl, hinside, hclosed, hcoordinators, hstarted, hoff, hown, hlayered, hknown⟩ := h
  simp only [List.length_append, List.length_singleton] at hstarted
  obtain ⟨restored, hrestored, hnext, hsame, hhandlers⟩ := restored_left hstarted hoff hown hlayered
  rw [leave_of_restored hrestored, hinside, hclosed]
  simp only [List.dropLast_concat, List.length_append, List.length_singleton, Nat.add_sub_cancel]
  refine ⟨rfl, rfl, rfl, hsame.trans hcoordinators, Nat.min_le_right _ _, ?_, ?_, hnext, ?_⟩
  · intro hfalse
    have hnone : started = 0 := hoff hfalse
    simp only [hnone, Nat.zero_min]
  · rw [List.map_append] at hown
    exact (List.nodup_append.mp hown).1
  · exact fun handler => (hhandlers handler).trans (hknown handler)

theorem Delivers.call (h : Delivers main_thread shutdown_coordinator disposition server audience)
    (index : Nat) (method : CoordinatorMethod) :
    ∃ process, server.process.perform (.call index method) = some process ∧
      Delivers main_thread shutdown_coordinator disposition { server with process }
        { audience with
          coordinators :=
            Function.update audience.coordinators index (method.effect (audience.coordinators index)) } := by
  obtain ⟨hthread, hinside, hclosed, hcoordinators, hstarted, hoff, hown, hlayered, hknown⟩ := h
  refine ⟨server.process.update_coordinator index method.effect,
    Routine.leaves_of_run (coordinator.call_run index server.process method), ?_⟩
  rw [← hcoordinators]
  exact ⟨hthread, hinside, hclosed, rfl, hstarted, hoff, hown, hlayered.same rfl rfl, hknown⟩

theorem Delivers.sigint (h : Delivers main_thread shutdown_coordinator disposition server audience)
    (hother : ∀ handler, disposition ≠ .handle_sigint handler) {outcomes : List Bool} {process : Process}
    (hsignal : handle_signal server.process outcomes = some process) :
    Delivers main_thread shutdown_coordinator disposition { server with process }
      { audience with
        coordinators := fun coordinator =>
          ShutdownCoordinator.escalate^[audience.hears shutdown_coordinator coordinator]
            (audience.coordinators coordinator) } := by
  obtain ⟨hthread, hinside, hclosed, hcoordinators, hstarted, hoff, hown, hlayered, hknown⟩ := h
  obtain rfl := handle_signal_heard hother hlayered hsignal
  refine ⟨hthread, hinside, hclosed, ?_, hstarted, hoff, hown, hlayered.same rfl rfl, hknown⟩
  funext coordinator
  simp only [Process.heard, Audience.hears, List.countP_reverse, hknown, hcoordinators]

/-- The step lemma. -/
theorem Delivers.step (h : Delivers main_thread shutdown_coordinator disposition server audience)
    (hother : ∀ handler, disposition ≠ .handle_sigint handler) {label : ServerLabel}
    (hstep : server.step label = some next) :
    ∃ later, audience.step main_thread shutdown_coordinator label = some later ∧
      Delivers main_thread shutdown_coordinator disposition next later := by
  cases label with
  | start stack =>
    simp only [Server.step, Option.ite_none_right_eq_some, List.isEmpty_iff, h.inside] at hstep
    obtain ⟨hempty, hstep⟩ := hstep
    cases hstep
    exact ⟨_, by simp only [Audience.step, hempty, List.isEmpty_nil, if_true], h.start hempty stack⟩
  | receive depth message =>
    simp only [Server.step, Option.ite_none_right_eq_some] at hstep
    obtain ⟨hdepth, hstep⟩ := hstep
    rw [h.inside] at hdepth
    obtain ⟨process, hprocess, hnext⟩ := h.receive hother hdepth message
    rw [hprocess] at hstep
    cases hstep
    refine ⟨_, ?_, hnext⟩
    simp only [Audience.step, hdepth, if_true]
    split_ifs <;> rfl
  | leave =>
    obtain ⟨middleware, hlast, rfl⟩ := Option.map_eq_some_iff.mp hstep
    rw [h.inside] at hlast
    exact ⟨_, by simp only [Audience.step, hlast, Option.map_some], h.leave hlast⟩
  | call coordinator method =>
    obtain ⟨process, hprocess, hnext⟩ := h.call coordinator method
    simp only [Server.step, hprocess] at hstep
    cases hstep
    exact ⟨_, rfl, hnext⟩
  | sigint outcomes =>
    obtain ⟨process, hprocess, rfl⟩ := Option.map_eq_some_iff.mp hstep
    exact ⟨_, rfl, h.sigint hother hprocess⟩

end Steps

variable {main_thread : Bool} {shutdown_coordinator : Nat → Nat} {disposition : SigintHandler}

theorem Delivers.init :
    Delivers main_thread shutdown_coordinator disposition (.init main_thread shutdown_coordinator disposition)
      .init where
  thread := rfl
  inside := rfl
  closed := rfl
  coordinators := rfl
  started := Nat.le_refl 0
  off_main_thread _ := rfl
  own := List.nodup_nil
  layered := .init shutdown_coordinator (some disposition)
  known _ := rfl

/-- Signal handlers are for the middlewares that were started. However lifespans
    of any stacks of middlewares follow each other, whoever between them receives
    messages or leaves early, and whatever else uses the coordinators, every SIGINT
    is heard by the coordinators of those middlewares that are inside and have seen
    a startup message, once for every one of them, and by no others. With nobody
    listening SIGINT is handled as at first, and every middleware that left has
    closed its storage, the inner ones first. -/
theorem signals_reach_audience (hother : ∀ handler, disposition ≠ .handle_sigint handler)
    {labels : List ServerLabel} {server : Server}
    (hrun : execute step (.init main_thread shutdown_coordinator disposition) labels = some server) :
    ∃ audience, execute (Audience.step main_thread shutdown_coordinator) .init labels = some audience ∧
      server.inside = audience.inside ∧ server.closed = audience.closed ∧
      server.process.coordinators = audience.coordinators ∧
      (audience.listeners = [] → server.process.sigint = some disposition) := by
  suffices hdelivers : ∃ audience, execute (Audience.step main_thread shutdown_coordinator) .init labels =
      some audience ∧ Delivers main_thread shutdown_coordinator disposition server audience by
    obtain ⟨audience, haudience, h⟩ := hdelivers
    refine ⟨audience, haudience, h.inside, h.closed, h.coordinators, fun hnone => ?_⟩
    have hstacked := h.layered.stacked
    rw [hnone] at hstacked
    exact hstacked
  induction labels using List.reverseRecOn generalizing server with
  | nil =>
    cases hrun
    exact ⟨.init, rfl, .init⟩
  | append_singleton earlier label ih =>
    obtain ⟨middle, hmiddle, hstep⟩ := (execute_concat step).mp hrun
    obtain ⟨audience, haudience, hdelivers⟩ := ih hmiddle
    obtain ⟨later, hlater, hnext⟩ := hdelivers.step hother hstep
    exact ⟨later, (execute_concat _).mpr ⟨audience, haudience, hlater⟩, hnext⟩

/-- One limiter registered twice on an application, with the two middlewares on
    its coordinator. -/
def registered_twice : MiddlewareStack :=
  ⟨[⟨true, 0, some 0, none⟩, ⟨true, 1, some 0, none⟩], by decide⟩

def interrupted_once : List ServerLabel :=
  [.start registered_twice, .receive 2 .startup, .sigint (List.replicate 32 false), .leave, .leave]

def interrupted_server : Option Server :=
  execute step (.init true (fun _ => 0) (.callable "default_int_handler")) interrupted_once

/-- Both hear the one SIGINT, so that it aborts at once. -/
theorem signals_reach_audience_registered_twice :
    ∃ server, interrupted_server = some server ∧ server.process.coordinators 0 = ⟨true, some .abort, 0⟩ ∧
      ∃ audience, execute (Audience.step true (fun _ => 0)) .init interrupted_once = some audience ∧
        server.inside = audience.inside ∧ server.closed = audience.closed ∧
        server.process.coordinators = audience.coordinators ∧
        (audience.listeners = [] → server.process.sigint = some (.callable "default_int_handler")) := by
  obtain ⟨server, hrun⟩ : ∃ server, interrupted_server = some server := ⟨_, rfl⟩
  have hother : ∀ handler, SigintHandler.callable "default_int_handler" ≠ .handle_sigint handler := nofun
  refine ⟨server, hrun, ?_, signals_reach_audience hother hrun⟩
  cases hrun
  rfl

end Server

end response_bandwidth_limiter.middleware

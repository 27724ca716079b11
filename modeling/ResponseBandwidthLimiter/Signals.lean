import Mathlib.Data.List.Basic
import Mathlib.Logic.Function.Basic
import ResponseBandwidthLimiter.Collections.Interrupts
import ResponseBandwidthLimiter.Shutdown

open collections
open response_bandwidth_limiter.shutdown

namespace response_bandwidth_limiter.signals

/-- What SIGINT can be handled by. The callables are the functions of others. -/
inductive SigintHandler where
  | sig_dfl
  | sig_ign
  | handle_sigint (handler : Nat)
  | callable (name : String)
  deriving DecidableEq, Repr

structure ShutdownSignalHandler where
  shutdown_coordinator : Nat
  signal_handler_installed : Bool
  original_sigint_handler : Option SigintHandler

def ShutdownSignalHandler.init (shutdown_coordinator : Nat) : ShutdownSignalHandler :=
  ⟨shutdown_coordinator, false, none⟩

/-- All coordinators and handlers of a process, and what SIGINT is handled by,
    which is none where that is not known to Python. -/
structure Process where
  coordinators : Nat → ShutdownCoordinator
  handlers : Nat → ShutdownSignalHandler
  sigint : Option SigintHandler

namespace Process

def init (shutdown_coordinator : Nat → Nat) (sigint : Option SigintHandler) : Process where
  coordinators _ := .init
  handlers handler := .init (shutdown_coordinator handler)
  sigint := sigint

def update_coordinator (self : Process) (coordinator : Nat)
    (update : ShutdownCoordinator → ShutdownCoordinator) : Process :=
  { self with
    coordinators := Function.update self.coordinators coordinator (update (self.coordinators coordinator)) }

@[simp] theorem update_coordinator_id (self : Process) (coordinator : Nat) :
    self.update_coordinator coordinator id = self := by
  simp [update_coordinator]

@[simp] theorem update_coordinator_update_coordinator (self : Process) (coordinator : Nat)
    (first second : ShutdownCoordinator → ShutdownCoordinator) :
    (self.update_coordinator coordinator first).update_coordinator coordinator second =
      self.update_coordinator coordinator (fun state => second (first state)) := by
  simp [update_coordinator]

theorem update_coordinator_congr {self : Process} {coordinator : Nat}
    {first second : ShutdownCoordinator → ShutdownCoordinator}
    (h : first (self.coordinators coordinator) = second (self.coordinators coordinator)) :
    self.update_coordinator coordinator first = self.update_coordinator coordinator second := by
  rw [update_coordinator, update_coordinator, h]

theorem update_coordinator_of_eq {self : Process} {coordinator : Nat}
    {update : ShutdownCoordinator → ShutdownCoordinator}
    (h : update (self.coordinators coordinator) = self.coordinators coordinator) :
    self.update_coordinator coordinator update = self :=
  (update_coordinator_congr h).trans (self.update_coordinator_id coordinator)

def update_handler (self : Process) (handler : Nat)
    (update : ShutdownSignalHandler → ShutdownSignalHandler) : Process :=
  { self with handlers := Function.update self.handlers handler (update (self.handlers handler)) }

end Process

/-- The two plain locks, of a coordinator and of a handler. -/
inductive Lock where
  | lock (coordinator : Nat)
  | signal_lock (handler : Nat)
  deriving DecidableEq, Repr

abbrev Code (A : Type) := Routine Process Lock SigintHandler A

namespace coordinator

variable (coordinator : Nat)

/-- One access to an attribute, after which the thread can be interrupted. -/
def get {A : Type} (value : ShutdownCoordinator → A) : Code A :=
  .read (fun process => value (process.coordinators coordinator))

def set (update : ShutdownCoordinator → ShutdownCoordinator) : Code Unit :=
  .write (fun process => process.update_coordinator coordinator update)

def is_shutting_down : Code Bool := .with_lock (.lock coordinator) (get coordinator (·.shutting_down))

def mode : Code (Option ShutdownMode) := .with_lock (.lock coordinator) (get coordinator (·.mode))

def shutting_down_with (mode : ShutdownMode) : Code Bool :=
  .with_lock (.lock coordinator) do
    if ← get coordinator (·.shutting_down) then
      return (← get coordinator (·.mode)) = some mode
    return false

def should_abort : Code Bool := shutting_down_with coordinator .abort

def should_flush : Code Bool := shutting_down_with coordinator .drain

def in_flight_count : Code Nat := .with_lock (.lock coordinator) (get coordinator (·.in_flight))

def begin_shutdown (mode : ShutdownMode) : Code Unit :=
  .with_lock (.lock coordinator) do
    if ← get coordinator (·.shutting_down) then
      if (← get coordinator (·.mode)) = some .drain ∧ mode = .abort then
        set coordinator ({ · with mode := some .abort })
      return
    set coordinator ({ · with shutting_down := true })
    set coordinator ({ · with mode := some mode })

def enter_response : Code Unit :=
  .with_lock (.lock coordinator) do
    let in_flight ← get coordinator (·.in_flight)
    set coordinator ({ · with in_flight := in_flight + 1 })

def exit_response : Code Unit :=
  .with_lock (.lock coordinator) do
    if (← get coordinator (·.in_flight)) > 0 then
      let in_flight ← get coordinator (·.in_flight)
      set coordinator ({ · with in_flight := in_flight - 1 })

/-- One turn of the loop. -/
def wait_until_drained (deadline_passed : Bool) : Code (Option Bool) := do
  let drained : Bool ← .with_lock (.lock coordinator) do
    return (← get coordinator (·.in_flight)) = 0
  if drained then
    return some true
  if deadline_passed then
    return some false
  return none

def reset : Code Unit :=
  .with_lock (.lock coordinator) do
    set coordinator ({ · with shutting_down := false })
    set coordinator ({ · with mode := none })
    set coordinator ({ · with in_flight := 0 })

end coordinator

/-- `signal.signal`, which takes no None. -/
def set_sigint : Option SigintHandler → Code Unit
  | none => .raise
  | some handler => .write (fun process => { process with sigint := some handler })

namespace ShutdownSignalHandler

variable (self : Nat)

def get {A : Type} (value : ShutdownSignalHandler → A) : Code A :=
  .read (fun process => value (process.handlers self))

def set (update : ShutdownSignalHandler → ShutdownSignalHandler) : Code Unit :=
  .write (fun process => process.update_handler self update)

def handle_sigint : Code Unit := do
  let shutting_down ← coordinator.is_shutting_down (← get self (·.shutdown_coordinator))
  let next_mode : ShutdownMode := if shutting_down then .abort else .drain
  coordinator.begin_shutdown (← get self (·.shutdown_coordinator)) next_mode
  let original_handler ← .with_lock (.signal_lock self) (get self (·.original_sigint_handler))
  match original_handler with
  | none => return
  | some .sig_ign => return
  -- `signal.default_int_handler` raises KeyboardInterrupt
  | some .sig_dfl => .raise
  | some original_handler =>
    if original_handler = .handle_sigint self then
      return
    .invoke original_handler

def install : Code Unit :=
  .with_lock (.signal_lock self) do
    if ← get self (·.signal_handler_installed) then
      return
    let original ← .read (·.sigint)
    set self ({ · with original_sigint_handler := original })
    set_sigint (some (.handle_sigint self))
    set self ({ · with signal_handler_installed := true })

def restore : Code Unit :=
  .with_lock (.signal_lock self) do
    if !(← get self (·.signal_handler_installed)) then
      return
    set_sigint (← get self (·.original_sigint_handler))
    set self ({ · with signal_handler_installed := false })
    set self ({ · with original_sigint_handler := none })

end ShutdownSignalHandler

/-- The code of a handler. A callable takes none of the locks, and may raise. -/
def SigintHandler.code : SigintHandler → Code Unit
  | .handle_sigint handler => ShutdownSignalHandler.handle_sigint handler
  | .callable _ => .choose (fun raises => if raises then .raise else .done ())
  -- neither is callable
  | .sig_dfl => .raise
  | .sig_ign => .raise

/-- A method of a coordinator, as the main thread calls it. -/
inductive CoordinatorMethod where
  | is_shutting_down
  | mode
  | should_abort
  | should_flush
  | in_flight_count
  | begin_shutdown (mode : ShutdownMode)
  | enter_response
  | exit_response
  | wait_until_drained (deadline_passed : Bool)
  | reset
  deriving DecidableEq, Repr

def coordinator.call (coordinator : Nat) : CoordinatorMethod → Code Unit
  | .is_shutting_down => discard (is_shutting_down coordinator)
  | .mode => discard (mode coordinator)
  | .should_abort => discard (should_abort coordinator)
  | .should_flush => discard (should_flush coordinator)
  | .in_flight_count => discard (in_flight_count coordinator)
  | .begin_shutdown mode => begin_shutdown coordinator mode
  | .enter_response => enter_response coordinator
  | .exit_response => exit_response coordinator
  | .wait_until_drained deadline_passed => discard (wait_until_drained coordinator deadline_passed)
  | .reset => reset coordinator

/-- What a method does to its coordinator. -/
def CoordinatorMethod.effect : CoordinatorMethod → ShutdownCoordinator → ShutdownCoordinator
  | .begin_shutdown next_mode => (·.begin_shutdown next_mode)
  | .enter_response => ShutdownCoordinator.enter_response
  | .exit_response => ShutdownCoordinator.exit_response
  | .reset => ShutdownCoordinator.reset
  | _ => id

section Uninterrupted

variable (index : Nat) (process : Process)

theorem coordinator.begin_shutdown_run (mode : ShutdownMode) :
    (begin_shutdown index mode).run process =
      some ((), process.update_coordinator index (·.begin_shutdown mode)) := by
  by_cases hbegun : (process.coordinators index).shutting_down
  · by_cases habort : (process.coordinators index).mode = some .drain ∧ mode = .abort
    · have hrun : (begin_shutdown index mode).run process =
          some ((), process.update_coordinator index ({ · with mode := some .abort })) := by
        simp [begin_shutdown, get, set, hbegun, habort]
      rw [hrun, Process.update_coordinator_congr]
      simp [ShutdownCoordinator.begin_shutdown, hbegun, habort]
    · have hrun : (begin_shutdown index mode).run process = some ((), process) := by
        simp [begin_shutdown, get, set, hbegun, habort]
      rw [hrun, Process.update_coordinator_of_eq]
      simp [ShutdownCoordinator.begin_shutdown, hbegun, habort]
  · have hrun : (begin_shutdown index mode).run process =
        some ((), process.update_coordinator index ({ · with shutting_down := true, mode := some mode })) := by
      simp [begin_shutdown, get, set, hbegun]
    rw [hrun, Process.update_coordinator_congr]
    simp [ShutdownCoordinator.begin_shutdown, hbegun]

theorem coordinator.exit_response_run :
    (exit_response index).run process =
      some ((), process.update_coordinator index ShutdownCoordinator.exit_response) := by
  by_cases hinside : 0 < (process.coordinators index).in_flight
  · have hrun : (exit_response index).run process = some ((), process.update_coordinator index
        ({ · with in_flight := (process.coordinators index).in_flight - 1 })) := by
      simp [exit_response, get, set, hinside]
    rw [hrun, Process.update_coordinator_congr]
    simp [ShutdownCoordinator.exit_response, hinside]
  · have hrun : (exit_response index).run process = some ((), process) := by
      simp [exit_response, get, set, hinside]
    rw [hrun, Process.update_coordinator_of_eq]
    simp [ShutdownCoordinator.exit_response, hinside]

/-- A method that no SIGINT interrupts does what it does at once. -/
theorem coordinator.call_run (method : CoordinatorMethod) :
    (coordinator.call index method).run process = some ((), process.update_coordinator index method.effect) := by
  cases method with
  | is_shutting_down => simp [call, is_shutting_down, get, CoordinatorMethod.effect]
  | mode => simp [call, coordinator.mode, get, CoordinatorMethod.effect]
  | should_abort =>
    cases hbegun : (process.coordinators index).shutting_down <;>
      simp [call, should_abort, shutting_down_with, get, CoordinatorMethod.effect, hbegun]
  | should_flush =>
    cases hbegun : (process.coordinators index).shutting_down <;>
      simp [call, should_flush, shutting_down_with, get, CoordinatorMethod.effect, hbegun]
  | in_flight_count => simp [call, in_flight_count, get, CoordinatorMethod.effect]
  | begin_shutdown next_mode => exact begin_shutdown_run index process next_mode
  | enter_response => exact congrArg (fun process => some ((), process)) (Process.update_coordinator_congr rfl)
  | exit_response => exact exit_response_run index process
  | wait_until_drained deadline_passed =>
    by_cases hdrained : (process.coordinators index).in_flight = 0 <;> cases deadline_passed <;>
      simp [call, wait_until_drained, get, CoordinatorMethod.effect, hdrained]
  | reset =>
    simp only [call, reset, set, Routine.run_with_lock, Routine.run_monad_bind, Routine.run_write,
      Option.bind_some, Process.update_coordinator_update_coordinator]
    rfl

end Uninterrupted

/-- What the main thread does, one call after the other. -/
inductive Operation where
  | call (coordinator : Nat) (method : CoordinatorMethod)
  | install (handler : Nat)
  | restore (handler : Nat)
  deriving DecidableEq, Repr

def Operation.code : Operation → Code Unit
  | .call index method => coordinator.call index method
  | .install handler => ShutdownSignalHandler.install handler
  | .restore handler => ShutdownSignalHandler.restore handler

abbrev MainThread := Thread Process Lock SigintHandler

/-- A call of the main thread, a step of its running frame, or a SIGINT. -/
inductive MainThreadLabel where
  | start (operation : Operation)
  | proceed (raises : Bool)
  | sigint
  deriving DecidableEq, Repr

namespace MainThread

/-- A SIGINT runs its handler in a new frame, whatever the frame below is at. The
    default action ends the process. -/
def step (thread : MainThread) : MainThreadLabel → Option MainThread
  | .start operation =>
    if thread.frames.isEmpty then some ⟨thread.memory, [⟨[], operation.code⟩]⟩ else none
  | .proceed raises => thread.proceed SigintHandler.code raises
  | .sigint =>
    match thread.memory.sigint with
    | none => some thread
    | some .sig_ign => some thread
    | some .sig_dfl => none
    | some handler => some ⟨thread.memory, ⟨[], handler.code⟩ :: thread.frames⟩

end MainThread

/-- The locks that a handler takes. -/
inductive Takes (handlers : Nat → ShutdownSignalHandler) : SigintHandler → Lock → Prop
  | lock (handler : Nat) : Takes handlers (.handle_sigint handler) (.lock (handlers handler).shutdown_coordinator)
  | signal_lock (handler : Nat) : Takes handlers (.handle_sigint handler) (.signal_lock handler)

/-- A handler passes SIGINT on to the one it remembers. -/
inductive PassesOn (handlers : Nat → ShutdownSignalHandler) : SigintHandler → SigintHandler → Prop
  | original {handler : Nat} {original_handler : SigintHandler}
      (horiginal : (handlers handler).original_sigint_handler = some original_handler)
      (hother : original_handler ≠ .handle_sigint handler) :
      PassesOn handlers (.handle_sigint handler) original_handler

section Methods

variable {keeps : Process → Prop} {locks : Lock → Prop} {calls : List Lock → SigintHandler → Prop} {index : Nat}

theorem coordinator.is_shutting_down_follows {ends : List Lock → Bool → Prop} (hlock : locks (.lock index))
    (hends : ∀ result, ends [] result) : (is_shutting_down index).Follows keeps locks calls ends [] := by
  simp [is_shutting_down, get, hlock, hends]

theorem coordinator.begin_shutdown_follows {ends : List Lock → Unit → Prop} {mode : ShutdownMode}
    (hlock : locks (.lock index)) (hends : ends [] ())
    (hkeeps : ∀ process update, keeps process → keeps (process.update_coordinator index update)) :
    (begin_shutdown index mode).Follows keeps locks calls ends [] := by
  simp +contextual [begin_shutdown, get, set, hlock, hends, hkeeps]

end Methods

/-- A SIGINT handler writes to coordinators only, takes its own two locks, each
    while it holds no other, and passes SIGINT on at its end. -/
theorem SigintHandler.code_follows (handlers : Nat → ShutdownSignalHandler) (handler : SigintHandler) :
    handler.code.Follows (fun process => process.handlers = handlers) (Takes handlers handler)
      (fun held other => held = [] ∧ PassesOn handlers handler other) (fun held _ => held = []) [] := by
  cases handler with
  | handle_sigint handler =>
    simp only [SigintHandler.code, ShutdownSignalHandler.handle_sigint, ShutdownSignalHandler.get,
      Routine.follows_monad_bind, Routine.follows_read, Routine.follows_with_lock]
    intro first hfirst
    subst hfirst
    refine ⟨rfl, coordinator.is_shutting_down_follows (.lock handler) ?_⟩
    intro shutting_down second hsecond
    refine ⟨hsecond, coordinator.begin_shutdown_follows ?_ ?_ (fun _ _ hprocess => hprocess)⟩
    · rw [hsecond]
      exact .lock handler
    · refine ⟨List.not_mem_nil, .signal_lock handler, fun third hthird => ⟨hthird, ?_⟩⟩
      rw [List.erase_cons_head, hthird]
      split
      · rfl
      · rfl
      · trivial
      · next original_handler _ _ horiginal =>
        rw [Routine.follows_ite]
        exact ⟨fun _ => rfl, fun hother => ⟨⟨rfl, .original horiginal hother⟩, rfl⟩⟩
  | callable name =>
    intro raises
    cases raises <;> trivial
  | sig_dfl => trivial
  | sig_ign => trivial

/-- An operation takes locks one at a time and gives each back. -/
theorem Operation.code_follows (operation : Operation) :
    operation.code.Follows (fun _ => True) (fun _ => True) (fun _ _ => False) (fun held _ => held = []) [] := by
  cases operation with
  | call index method =>
    cases method <;>
      simp [Operation.code, coordinator.call, coordinator.is_shutting_down, coordinator.mode,
        coordinator.should_abort, coordinator.should_flush, coordinator.shutting_down_with,
        coordinator.in_flight_count, coordinator.begin_shutdown, coordinator.enter_response,
        coordinator.exit_response, coordinator.wait_until_drained, coordinator.reset, coordinator.get,
        coordinator.set]
  | install handler =>
    simp [Operation.code, ShutdownSignalHandler.install, ShutdownSignalHandler.get, ShutdownSignalHandler.set,
      set_sigint]
  | restore handler =>
    simp only [Operation.code, ShutdownSignalHandler.restore, ShutdownSignalHandler.get, ShutdownSignalHandler.set,
      Routine.follows_with_lock, Routine.follows_monad_bind, Routine.follows_read, Routine.follows_ite]
    refine ⟨List.not_mem_nil, trivial, fun process _ => ⟨trivial, by simp, fun _ later _ => ⟨trivial, ?_⟩⟩⟩
    cases (later.handlers handler).original_sigint_handler with
    | none => trivial
    | some original_handler => simp [set_sigint]

def discipline : Discipline Process Lock SigintHandler (Nat → ShutdownSignalHandler) where
  invoke := SigintHandler.code
  view := Process.handlers
  locks := Takes
  next := PassesOn
  invoke_follows := SigintHandler.code_follows

namespace MainThread

/-- No frame holds a lock of the handlers that SIGINT would go through, of which
    there is a last one. -/
def Clear (thread : MainThread) : Prop :=
  ∀ handler, thread.memory.sigint = some handler → discipline.Clear thread.memory.handlers handler thread.frames

/-- A handler over a callable is clear once its own two locks are free. -/
theorem clear_of_callable {thread : MainThread} {handler : Nat} {name : String}
    (hsigint : thread.memory.sigint = some (.handle_sigint handler))
    (horiginal : (thread.memory.handlers handler).original_sigint_handler = some (.callable name))
    (hlock : ∀ frame ∈ thread.frames, .lock (thread.memory.handlers handler).shutdown_coordinator ∉ frame.held)
    (hsignal : ∀ frame ∈ thread.frames, .signal_lock handler ∉ frame.held) : thread.Clear := by
  intro installed hinstalled
  obtain rfl : .handle_sigint handler = installed := Option.some.inj (hsigint.symm.trans hinstalled)
  have hlast : ∀ other, PassesOn thread.memory.handlers (.handle_sigint handler) other →
      other = .callable name := by
    rintro other ⟨hother, -⟩
    exact Option.some.inj (hother.symm.trans horiginal)
  constructor
  · intro later lock hreached htakes
    rcases hreached.cases_head with rfl | ⟨other, hother, hreached⟩
    · cases htakes with
      | lock => exact hlock
      | signal_lock => exact hsignal
    · obtain rfl := hlast other hother
      rcases hreached.cases_head with rfl | ⟨_, hnone, -⟩
      · cases htakes
      · cases hnone
  · refine ⟨_, fun other hother => ?_⟩
    obtain rfl := hlast other hother
    exact ⟨_, nofun⟩

/-- The frames are those of one operation and of handlers above it. -/
def Nests (thread : MainThread) : Prop := Nested discipline thread.memory.handlers thread.frames

theorem Nests.step {thread next : MainThread} {label : MainThreadLabel} (h : thread.Nests)
    (hclear : label = .sigint → thread.Clear) (hstep : thread.step label = some next) : next.Nests := by
  cases label with
  | start operation =>
    simp only [MainThread.step, Option.ite_none_right_eq_some] at hstep
    obtain ⟨-, hstep⟩ := hstep
    cases hstep
    exact .bottom operation.code_follows
  | proceed raises => exact Nested.proceed h hstep
  | sigint =>
    cases hsigint : thread.memory.sigint with
    | none =>
      simp only [MainThread.step, hsigint] at hstep
      cases hstep
      exact h
    | some handler =>
      have hpushed := Nested.interrupted h (hclear rfl handler hsigint)
      cases handler <;> simp only [MainThread.step, hsigint] at hstep <;> cases hstep
      · exact h
      · exact hpushed
      · exact hpushed

/-- While every SIGINT finds its locks free, no frame of the main thread ever
    wants a lock that a suspended frame below it holds, and all frames, those of
    the handlers included, come to their ends. -/
theorem sigint_never_deadlocks {process : Process} {labels : List MainThreadLabel} {state : MainThread}
    (hclear : ∀ before rest middle, labels = before ++ .sigint :: rest →
      execute step ⟨process, []⟩ before = some middle → middle.Clear)
    (hrun : execute step ⟨process, []⟩ labels = some state) :
    ¬ state.Deadlocked ∧
      Inevitable (Thread.proceed SigintHandler.code) (fun final => final.frames = []) state := by
  have hnests : state.Nests := by
    refine execute_invariant_along step (show Nests ⟨process, []⟩ from .nil) ?_ hrun
    intro before label rest middle next hsplit hbefore hmiddle hstep
    refine hmiddle.step ?_ hstep
    rintro rfl
    exact hclear before rest middle hsplit hbefore
  exact ⟨Nested.not_deadlocked hnests, Nested.ends hnests⟩

/-- One handler, whose coordinator is the first, over Python's own handler. -/
def single_handler : Process := .init (fun _ => 0) (some (.callable "default_int_handler"))

def interrupted_restore : List MainThreadLabel :=
  .start (.install 0) :: List.replicate 8 (.proceed false) ++
    .start (.restore 0) :: List.replicate 3 (.proceed false) ++ .sigint :: List.replicate 10 (.proceed false)

/-- A SIGINT inside the `signal.signal` call of `restore` waits for the lock that
    `restore` holds. -/
theorem interrupted_restore_deadlocks :
    ¬ ∀ (shutdown_coordinator : Nat → Nat) (sigint : Option SigintHandler) (labels : List MainThreadLabel)
      (state : MainThread), execute step ⟨.init shutdown_coordinator sigint, []⟩ labels = some state →
        ¬ state.Deadlocked := by
  intro hclaim
  refine hclaim (fun _ => 0) (some (.callable "default_int_handler")) interrupted_restore _ rfl ?_
  exact ⟨_, _, .signal_lock 0, _, rfl, rfl, _, List.mem_singleton.mpr rfl, List.mem_singleton.mpr rfl⟩

def interrupted_enter_response : List MainThreadLabel :=
  .start (.install 0) :: List.replicate 8 (.proceed false) ++
    .start (.call 1 .enter_response) :: List.replicate 2 (.proceed false)

/-- A SIGINT while another coordinator is locked comes back. -/
theorem interrupted_enter_response_ends :
    ∃ state, execute step ⟨single_handler, []⟩ (interrupted_enter_response ++ [.sigint]) = some state ∧
      ¬ state.Deadlocked ∧
      Inevitable (Thread.proceed SigintHandler.code) (fun final => final.frames = []) state := by
  obtain ⟨state, hrun⟩ : ∃ state, execute step ⟨single_handler, []⟩ (interrupted_enter_response ++ [.sigint]) =
      some state := ⟨_, rfl⟩
  refine ⟨state, hrun, sigint_never_deadlocks ?_ hrun⟩
  intro before rest middle hsplit hbefore
  obtain ⟨rfl, -, -⟩ := (List.append_cons_inj_of_notMem (by decide) (by decide)).mp hsplit
  cases hbefore
  refine clear_of_callable rfl rfl ?_ ?_
  · exact List.forall_mem_singleton.mpr (by decide)
  · exact List.forall_mem_singleton.mpr (by decide)

end MainThread

end response_bandwidth_limiter.signals

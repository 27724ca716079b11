import ResponseBandwidthLimiter.Collections.Runs
import ResponseBandwidthLimiter.Signals

open collections
open response_bandwidth_limiter.shutdown

namespace response_bandwidth_limiter.signals

namespace Process

/-- The process after a call that no SIGINT interrupts, which may have raised. -/
def perform (self : Process) (operation : Operation) : Option Process := operation.code.leaves self

/-- The process once a handler is installed over what SIGINT was handled by. -/
def installed (self : Process) (handler : Nat) : Process :=
  { self with
    handlers := Function.update self.handlers handler
      { self.handlers handler with signal_handler_installed := true, original_sigint_handler := self.sigint }
    sigint := some (.handle_sigint handler) }

/-- The process once a handler has written back what it remembered. -/
def restored (self : Process) (handler : Nat) (original_handler : SigintHandler) : Process :=
  { self with
    handlers := Function.update self.handlers handler
      { self.handlers handler with signal_handler_installed := false, original_sigint_handler := none }
    sigint := some original_handler }

variable (self : Process)

theorem installed_handlers_self (handler : Nat) :
    (self.installed handler).handlers handler =
      { self.handlers handler with signal_handler_installed := true, original_sigint_handler := self.sigint } :=
  Function.update_self _ _ _

theorem installed_handlers_of_ne {handler other : Nat} (hne : other ≠ handler) :
    (self.installed handler).handlers other = self.handlers other :=
  Function.update_of_ne hne _ _

theorem restored_handlers_self (handler : Nat) (original_handler : SigintHandler) :
    (self.restored handler original_handler).handlers handler =
      { self.handlers handler with signal_handler_installed := false, original_sigint_handler := none } :=
  Function.update_self _ _ _

theorem restored_handlers_of_ne {handler other : Nat} (original_handler : SigintHandler) (hne : other ≠ handler) :
    (self.restored handler original_handler).handlers other = self.handlers other :=
  Function.update_of_ne hne _ _

end Process

namespace ShutdownSignalHandler

variable {process : Process} {handler : Nat}

theorem install_leaves_of_installed (h : (process.handlers handler).signal_handler_installed = true) :
    (install handler).leaves process = some process := by
  have hrun : (install handler).run process = some ((), process) := by simp [install, get, h]
  exact Routine.leaves_of_run hrun

theorem install_leaves (h : (process.handlers handler).signal_handler_installed = false) :
    (install handler).leaves process = some (process.installed handler) := by
  have hrun : (install handler).run process = some ((), process.installed handler) := by
    simp [install, get, set, set_sigint, h, Process.installed, Process.update_handler]
  exact Routine.leaves_of_run hrun

theorem restore_leaves_of_idle (h : (process.handlers handler).signal_handler_installed = false) :
    (restore handler).leaves process = some process := by
  have hrun : (restore handler).run process = some ((), process) := by simp [restore, get, h]
  exact Routine.leaves_of_run hrun

theorem restore_leaves (h : (process.handlers handler).signal_handler_installed = true)
    {original_handler : SigintHandler}
    (horiginal : (process.handlers handler).original_sigint_handler = some original_handler) :
    (restore handler).leaves process = some (process.restored handler original_handler) := by
  have hrun : (restore handler).run process = some ((), process.restored handler original_handler) := by
    simp [restore, get, set, set_sigint, h, horiginal, Process.restored, Process.update_handler]
  exact Routine.leaves_of_run hrun

/-- `signal.signal` takes no None, and raises before anything is written. -/
theorem restore_leaves_of_unknown (h : (process.handlers handler).signal_handler_installed = true)
    (horiginal : (process.handlers handler).original_sigint_handler = none) :
    (restore handler).leaves process = some process := by
  simp [restore, get, set_sigint, h, horiginal, Routine.run, Routine.leaves]

end ShutdownSignalHandler

namespace Process

/-- What a call does: nothing to the handlers, or one of the two writes. -/
theorem perform_cases (self : Process) (operation : Operation) :
    (∃ next, self.perform operation = some next ∧ next.handlers = self.handlers ∧ next.sigint = self.sigint) ∨
    (∃ handler, operation = .install handler ∧ (self.handlers handler).signal_handler_installed = false ∧
      self.perform operation = some (self.installed handler)) ∨
    (∃ handler original_handler, operation = .restore handler ∧
      (self.handlers handler).signal_handler_installed = true ∧
      (self.handlers handler).original_sigint_handler = some original_handler ∧
      self.perform operation = some (self.restored handler original_handler)) := by
  cases operation with
  | call index method => exact Or.inl ⟨_, Routine.leaves_of_run (coordinator.call_run index self method), rfl, rfl⟩
  | install handler =>
    cases hinstalled : (self.handlers handler).signal_handler_installed with
    | true => exact Or.inl ⟨_, ShutdownSignalHandler.install_leaves_of_installed hinstalled, rfl, rfl⟩
    | false => exact Or.inr (Or.inl ⟨handler, rfl, hinstalled, ShutdownSignalHandler.install_leaves hinstalled⟩)
  | restore handler =>
    cases hinstalled : (self.handlers handler).signal_handler_installed with
    | false => exact Or.inl ⟨_, ShutdownSignalHandler.restore_leaves_of_idle hinstalled, rfl, rfl⟩
    | true =>
      cases horiginal : (self.handlers handler).original_sigint_handler with
      | none =>
        exact Or.inl ⟨_, ShutdownSignalHandler.restore_leaves_of_unknown hinstalled horiginal, rfl, rfl⟩
      | some original_handler =>
        exact Or.inr (Or.inr ⟨handler, original_handler, rfl, hinstalled, horiginal,
          ShutdownSignalHandler.restore_leaves hinstalled horiginal⟩)

/-- Whether a handler is installed while no handler passes SIGINT on to it, and
    restored, if it can write anything back, while SIGINT is handled by it. -/
def InTurn (self : Process) : Operation → Prop
  | .call _ _ => True
  | .install handler =>
    (self.handlers handler).signal_handler_installed = false →
      ∀ other, (self.handlers other).original_sigint_handler ≠ some (.handle_sigint handler)
  | .restore handler =>
    (self.handlers handler).signal_handler_installed = true →
      (self.handlers handler).original_sigint_handler ≠ none → self.sigint = some (.handle_sigint handler)

/-- No handler is installed. -/
def NoneInstalled (self : Process) : Prop := ∀ handler, (self.handlers handler).signal_handler_installed = false

/-- A SIGINT that finds the main thread idle comes to its end, through all the
    handlers that it is passed on to. -/
def DispatchEnds (self : Process) : Prop :=
  ∀ thread, MainThread.step ⟨self, []⟩ .sigint = some thread →
    Inevitable (Thread.proceed SigintHandler.code) (fun final => final.frames = []) thread

end Process

namespace ShutdownSignalHandler

/-- What a handler does before it passes SIGINT on. -/
def begin_and_consult (self : Nat) : Code (Option SigintHandler) := do
  let shutting_down ← coordinator.is_shutting_down (← get self (·.shutdown_coordinator))
  let next_mode : ShutdownMode := if shutting_down then .abort else .drain
  coordinator.begin_shutdown (← get self (·.shutdown_coordinator)) next_mode
  .with_lock (.signal_lock self) (get self (·.original_sigint_handler))

def pass_on (self : Nat) (original_handler : Option SigintHandler) : Code Unit := do
  match original_handler with
  | none => return
  | some .sig_ign => return
  | some .sig_dfl => .raise
  | some original_handler =>
    if original_handler = .handle_sigint self then
      return
    .invoke original_handler

theorem handle_sigint_eq (handler : Nat) :
    handle_sigint handler = (begin_and_consult handler).bind (pass_on handler) := by
  simp only [handle_sigint, begin_and_consult, Bind.bind, Routine.bind_assoc]
  rfl

theorem begin_and_consult_run (handler : Nat) (process : Process) :
    ∃ after, (begin_and_consult handler).run process =
        some ((process.handlers handler).original_sigint_handler, after) ∧ after.handlers = process.handlers := by
  let index := (process.handlers handler).shutdown_coordinator
  let next_mode : ShutdownMode := if (process.coordinators index).shutting_down then .abort else .drain
  refine ⟨process.update_coordinator index (·.begin_shutdown next_mode), ?_, rfl⟩
  simp [begin_and_consult, get, coordinator.is_shutting_down, coordinator.get, coordinator.begin_shutdown_run,
    index, next_mode]
  rfl

theorem begin_and_consult_follows (handler : Nat) :
    (begin_and_consult handler).Follows (fun _ => True) (fun _ => True) (fun _ _ => False)
      (fun held _ => held = []) [] := by
  simp [begin_and_consult, get, coordinator.is_shutting_down, coordinator.get, coordinator.begin_shutdown,
    coordinator.set]

/-- A handler that remembers another one gets to it. -/
theorem handle_sigint_reaches {memory : Process} {handler other : Nat}
    (horiginal : (memory.handlers handler).original_sigint_handler = some (.handle_sigint other))
    (hother : SigintHandler.handle_sigint other ≠ .handle_sigint handler)
    {below : List (Frame Process Lock SigintHandler)} (hfree : ∀ frame ∈ below, frame.held = []) :
    ∃ label labels after, execute (Thread.proceed SigintHandler.code)
        ⟨memory, ⟨[], handle_sigint handler⟩ :: below⟩ (label :: labels) =
          some ⟨after, ⟨[], handle_sigint other⟩ :: ⟨[], .done ()⟩ :: below⟩ ∧ after.handlers = memory.handlers := by
  obtain ⟨after, hrun, hhandlers⟩ := begin_and_consult_run handler memory
  have hlocks : ∀ lock, True → ∀ frame ∈ below, lock ∉ frame.held := by
    intro lock _ frame hframe
    rw [hfree frame hframe]
    exact List.not_mem_nil
  obtain ⟨labels, hlabels⟩ := Thread.returns SigintHandler.code hlocks (pass_on handler) trivial
    (begin_and_consult_follows handler) hrun
  have hpass : pass_on handler (some (.handle_sigint other)) = .invoke (.handle_sigint other) := if_neg hother
  rw [← handle_sigint_eq, horiginal, hpass] at hlabels
  have hcalls : execute (Thread.proceed SigintHandler.code) ⟨memory, ⟨[], handle_sigint handler⟩ :: below⟩
      (labels ++ [true]) = some ⟨after, ⟨[], handle_sigint other⟩ :: ⟨[], .done ()⟩ :: below⟩ :=
    (execute_concat _).mpr ⟨_, hlabels, rfl⟩
  cases labels with
  | nil => exact ⟨true, [], after, hcalls, hhandlers⟩
  | cons label labels => exact ⟨label, labels ++ [true], after, hcalls, hhandlers⟩

end ShutdownSignalHandler

/-- A chain of handlers that come back has a last one. -/
theorem passing_ends_of_acc {thread : MainThread}
    (hacc : Acc (Relation.TransGen
      fun next state => ∃ label, Thread.proceed SigintHandler.code state label = some next) thread)
    {handler : SigintHandler} {below : List (Frame Process Lock SigintHandler)}
    (hframes : thread.frames = ⟨[], handler.code⟩ :: below) (hfree : ∀ frame ∈ below, frame.held = []) :
    Acc (fun later earlier => PassesOn thread.memory.handlers earlier later) handler := by
  induction hacc generalizing handler below with
  | intro thread _ ih =>
    obtain ⟨memory, frames⟩ := thread
    subst hframes
    refine ⟨_, ?_⟩
    rintro later ⟨horiginal, hother⟩
    cases later with
    | handle_sigint other =>
      obtain ⟨label, labels, after, hreached, hhandlers⟩ :=
        ShutdownSignalHandler.handle_sigint_reaches horiginal hother hfree
      have hlater : Acc (fun later earlier => PassesOn after.handlers earlier later) (.handle_sigint other) :=
        ih _ (transGen_of_execute _ hreached) rfl (List.forall_mem_cons.mpr ⟨rfl, hfree⟩)
      rw [hhandlers] at hlater
      exact hlater
    | _ =>
      refine ⟨_, ?_⟩
      rintro later ⟨⟩

/-- The chain of handlers that SIGINT is passed on along has a last one. -/
def Process.PassingEnds (self : Process) : Prop :=
  ∀ first ∈ self.sigint, Acc (fun later earlier => PassesOn self.handlers earlier later) first

/-- A SIGINT comes to its end exactly when it is not passed on forever. -/
theorem Process.dispatch_ends_iff {self : Process} : self.DispatchEnds ↔ self.PassingEnds := by
  constructor
  · intro hends first hfirst
    cases first with
    | handle_sigint handler =>
      have hstep : MainThread.step ⟨self, []⟩ .sigint =
          some ⟨self, [⟨[], SigintHandler.code (.handle_sigint handler)⟩]⟩ := by
        simp [MainThread.step, show self.sigint = _ from hfirst]
      have hlast : ∀ (state : MainThread) label, state.frames = [] →
          Thread.proceed SigintHandler.code state label = none := by
        rintro ⟨memory, frames⟩ label rfl
        rfl
      exact passing_ends_of_acc ((hends _ hstep).acc _ hlast).transGen rfl (by simp)
    | _ =>
      refine ⟨_, ?_⟩
      rintro later ⟨⟩
  · intro hends thread hstep
    have hclear : MainThread.Clear ⟨self, []⟩ := fun first hfirst =>
      ⟨fun _ _ _ _ frame hframe => absurd hframe List.not_mem_nil, hends first hfirst⟩
    have hidle : MainThread.Nests ⟨self, []⟩ := .nil
    exact Nested.ends (hidle.step (fun _ => hclear) hstep)

/-- What SIGINT is handled by goes down a stack of installed handlers to the
    first disposition, each handler remembering what is below it. -/
def Stacked (handlers : Nat → ShutdownSignalHandler) (disposition : Option SigintHandler) :
    List Nat → Option SigintHandler → Prop
  | [], sigint => sigint = disposition
  | handler :: below, sigint =>
    sigint = some (.handle_sigint handler) ∧ (handlers handler).signal_handler_installed = true ∧
      Stacked handlers disposition below (handlers handler).original_sigint_handler

namespace Stacked

variable {handlers handlers' : Nat → ShutdownSignalHandler} {disposition sigint : Option SigintHandler}
  {stack : List Nat}

theorem congr (hsame : ∀ handler ∈ stack, handlers' handler = handlers handler)
    (h : Stacked handlers disposition stack sigint) : Stacked handlers' disposition stack sigint := by
  induction stack generalizing sigint with
  | nil => exact h
  | cons top below ih =>
    obtain ⟨hsigint, hinstalled, hbelow⟩ := h
    have htop := hsame top (by simp)
    refine ⟨hsigint, by rw [htop]; exact hinstalled, ?_⟩
    rw [htop]
    exact ih (fun handler hhandler => hsame handler (List.mem_cons_of_mem _ hhandler)) hbelow

theorem installed_of_mem (h : Stacked handlers disposition stack sigint) {handler : Nat} (hmem : handler ∈ stack) :
    (handlers handler).signal_handler_installed = true := by
  induction stack generalizing sigint with
  | nil => cases hmem
  | cons top below ih =>
    obtain ⟨-, hinstalled, hbelow⟩ := h
    rcases List.mem_cons.mp hmem with rfl | hmem
    · exact hinstalled
    · exact ih hbelow hmem

/-- Below the handlers of a stack that is not empty, one of them remembers the
    first disposition. -/
theorem remembers (h : Stacked handlers disposition stack sigint) (hne : stack ≠ []) :
    ∃ handler, (handlers handler).original_sigint_handler = disposition := by
  induction stack generalizing sigint with
  | nil => exact absurd rfl hne
  | cons top below ih =>
    obtain ⟨-, -, hbelow⟩ := h
    cases below with
    | nil => exact ⟨top, hbelow⟩
    | cons next below => exact ih hbelow (by simp)

/-- SIGINT is passed on to every handler of a stack. -/
theorem reaches (h : Stacked handlers disposition stack sigint) (hnodup : stack.Nodup) {handler : Nat}
    (hmem : handler ∈ stack) :
    ∃ top below, stack = top :: below ∧
      Relation.ReflTransGen (PassesOn handlers) (.handle_sigint top) (.handle_sigint handler) := by
  induction stack generalizing sigint with
  | nil => cases hmem
  | cons top below ih =>
    refine ⟨top, below, rfl, ?_⟩
    obtain ⟨hfresh, hnodup⟩ := List.nodup_cons.mp hnodup
    obtain ⟨-, -, hbelow⟩ := h
    rcases List.mem_cons.mp hmem with rfl | hmem
    · exact .refl
    · obtain ⟨next, rest, rfl, hreached⟩ := ih hbelow hnodup hmem
      refine .head (.original hbelow.1 ?_) hreached
      rintro ⟨⟩
      exact hfresh (by simp)

/-- The handlers of a stack pass SIGINT down, and the first disposition does not
    pass it back up. -/
theorem passing_ends (h : Stacked handlers disposition stack sigint)
    (hbase : ∀ handler, disposition = some (.handle_sigint handler) →
      (handlers handler).original_sigint_handler = none ∨
        (handlers handler).original_sigint_handler = disposition) :
    ∀ first ∈ sigint, Acc (fun later earlier => PassesOn handlers earlier later) first := by
  induction stack generalizing sigint with
  | nil =>
    subst h
    refine fun first hfirst => ⟨_, ?_⟩
    rintro later ⟨horiginal, hother⟩
    rcases hbase _ hfirst with hnone | hsame
    · rw [hnone] at horiginal
      cases horiginal
    · rw [hsame, hfirst] at horiginal
      exact absurd (Option.some.inj horiginal).symm hother
  | cons top below ih =>
    obtain ⟨rfl, -, hbelow⟩ := h
    rintro first ⟨⟩
    refine ⟨_, ?_⟩
    rintro later ⟨horiginal, -⟩
    exact ih hbelow later horiginal

end Stacked

/-- The installed handlers are those of a stack, over the disposition that was
    there before them. -/
structure Layered (disposition : Option SigintHandler) (stack : List Nat) (process : Process) : Prop where
  stacked : Stacked process.handlers disposition stack process.sigint
  nodup : stack.Nodup
  idle : ∀ handler, handler ∉ stack → (process.handlers handler).signal_handler_installed = false ∧
    (process.handlers handler).original_sigint_handler = none
  base : ∀ handler, disposition = some (.handle_sigint handler) →
    (process.handlers handler).original_sigint_handler = none ∨
      (process.handlers handler).original_sigint_handler = disposition

namespace Layered

variable {disposition : Option SigintHandler} {stack : List Nat} {process next : Process} {handler : Nat}

theorem init (shutdown_coordinator : Nat → Nat) (disposition : Option SigintHandler) :
    Layered disposition [] (.init shutdown_coordinator disposition) where
  stacked := rfl
  nodup := List.nodup_nil
  idle _ _ := ⟨rfl, rfl⟩
  base _ _ := Or.inl rfl

theorem same (h : Layered disposition stack process) (hhandlers : next.handlers = process.handlers)
    (hsigint : next.sigint = process.sigint) : Layered disposition stack next := by
  obtain ⟨hstacked, hnodup, hidle, hbase⟩ := h
  refine ⟨?_, hnodup, ?_, ?_⟩
  · rw [hhandlers, hsigint]
    exact hstacked
  · rw [hhandlers]
    exact hidle
  · rw [hhandlers]
    exact hbase

theorem installed_iff (h : Layered disposition stack process) (handler : Nat) :
    (process.handlers handler).signal_handler_installed = true ↔ handler ∈ stack := by
  constructor
  · intro hinstalled
    by_contra hmem
    rw [(h.idle handler hmem).1] at hinstalled
    cases hinstalled
  · exact fun hmem => h.stacked.installed_of_mem hmem

theorem not_mem_of_idle (h : Layered disposition stack process)
    (hidle : (process.handlers handler).signal_handler_installed = false) : handler ∉ stack := by
  rw [← h.installed_iff, hidle]
  exact Bool.false_ne_true

/-- The stack is not touched by what is installed over it. -/
theorem stacked_installed (h : Layered disposition stack process)
    (hnew : (process.handlers handler).signal_handler_installed = false) :
    Stacked (process.installed handler).handlers disposition stack process.sigint := by
  refine h.stacked.congr fun other hother => process.installed_handlers_of_ne ?_
  rintro rfl
  exact h.not_mem_of_idle hnew hother

/-- A handler that is installed in its turn goes on top. -/
theorem installed (h : Layered disposition stack process)
    (hnew : (process.handlers handler).signal_handler_installed = false)
    (hturn : ∀ other, (process.handlers other).original_sigint_handler ≠ some (.handle_sigint handler)) :
    Layered disposition (handler :: stack) (process.installed handler) := by
  refine ⟨⟨rfl, ?_, ?_⟩, List.nodup_cons.mpr ⟨h.not_mem_of_idle hnew, h.nodup⟩, ?_, ?_⟩
  · rw [process.installed_handlers_self]
  · rw [process.installed_handlers_self]
    exact h.stacked_installed hnew
  · intro other hother
    rw [List.mem_cons, not_or] at hother
    rw [process.installed_handlers_of_ne hother.1]
    exact h.idle other hother.2
  · intro other hother
    by_cases heq : other = handler
    · subst heq
      -- nobody remembers the first disposition, so nobody is installed over it
      have hempty : stack = [] := by
        by_contra hne
        obtain ⟨lowest, hremembers⟩ := h.stacked.remembers hne
        exact hturn lowest (hremembers.trans hother)
      subst hempty
      rw [process.installed_handlers_self]
      exact Or.inr h.stacked
    · rw [process.installed_handlers_of_ne heq]
      exact h.base other hother

/-- A handler that is installed over one that passes SIGINT on to it goes around
    forever. -/
theorem never_ends_of_remembered (h : Layered disposition stack process)
    (hnew : (process.handlers handler).signal_handler_installed = false) {other : Nat}
    (hother : (process.handlers other).original_sigint_handler = some (.handle_sigint handler)) :
    ¬ (process.installed handler).DispatchEnds := by
  have hmem : handler ∉ stack := h.not_mem_of_idle hnew
  have hlower : other ∈ stack := by
    by_contra hlower
    rw [(h.idle other hlower).2] at hother
    cases hother
  have hstacked := h.stacked_installed hnew
  obtain ⟨top, below, rfl, hreached⟩ := hstacked.reaches h.nodup hlower
  have htop : PassesOn (process.installed handler).handlers (.handle_sigint handler) (.handle_sigint top) := by
    refine .original ?_ ?_
    · rw [process.installed_handlers_self]
      exact hstacked.1
    · rintro ⟨⟩
      exact hmem (by simp)
  have hback : PassesOn (process.installed handler).handlers (.handle_sigint other) (.handle_sigint handler) := by
    have hne : other ≠ handler := by
      rintro rfl
      exact hmem hlower
    refine .original ?_ ?_
    · rw [process.installed_handlers_of_ne hne]
      exact hother
    · rintro ⟨⟩
      exact hne rfl
  rw [Process.dispatch_ends_iff]
  intro hends
  refine not_acc_of_cycle ?_ (hends (.handle_sigint handler) rfl)
  exact Relation.transGen_swap.mpr ((Relation.TransGen.head' htop hreached).tail hback)

/-- A handler that is restored in its turn is the one on top. -/
theorem restored (h : Layered disposition stack process)
    (hinstalled : (process.handlers handler).signal_handler_installed = true) {original_handler : SigintHandler}
    (horiginal : (process.handlers handler).original_sigint_handler = some original_handler)
    (hturn : process.sigint = some (.handle_sigint handler)) :
    Layered disposition stack.tail (process.restored handler original_handler) := by
  have hmem : handler ∈ stack := (h.installed_iff handler).mp hinstalled
  obtain ⟨hstacked, hnodup, hidle, hbase⟩ := h
  cases stack with
  | nil => cases hmem
  | cons top below =>
    obtain ⟨hsigint, -, hbelow⟩ := hstacked
    rw [hturn] at hsigint
    cases hsigint
    obtain ⟨hfresh, hnodup⟩ := List.nodup_cons.mp hnodup
    refine ⟨?_, hnodup, ?_, ?_⟩
    · rw [horiginal] at hbelow
      refine hbelow.congr fun other hother => process.restored_handlers_of_ne original_handler ?_
      rintro rfl
      exact hfresh hother
    · intro other hother
      by_cases heq : other = handler
      · rw [heq, process.restored_handlers_self]
        exact ⟨rfl, rfl⟩
      · rw [process.restored_handlers_of_ne original_handler heq]
        apply hidle other
        intro hstill
        rcases List.mem_cons.mp hstill with hsame | hstill
        · exact heq hsame
        · exact hother hstill
    · intro other hother
      by_cases heq : other = handler
      · rw [heq, process.restored_handlers_self]
        exact Or.inl rfl
      · rw [process.restored_handlers_of_ne original_handler heq]
        exact hbase other hother

/-- The step lemma: a call in its turn returns, and leaves the handlers in
    layers. -/
theorem perform (h : Layered disposition stack process) {operation : Operation} (hturn : process.InTurn operation) :
    ∃ next stack, process.perform operation = some next ∧ Layered disposition stack next := by
  rcases process.perform_cases operation with ⟨next, hnext, hhandlers, hsigint⟩ | ⟨handler, rfl, hnew, hnext⟩ |
    ⟨handler, original_handler, rfl, hinstalled, horiginal, hnext⟩
  · exact ⟨next, stack, hnext, h.same hhandlers hsigint⟩
  · exact ⟨_, _, hnext, h.installed hnew (hturn hnew)⟩
  · have hknown : (process.handlers handler).original_sigint_handler ≠ none := by
      rw [horiginal]
      exact Option.some_ne_none _
    exact ⟨_, _, hnext, h.restored hinstalled horiginal (hturn hinstalled hknown)⟩

/-- With no handler installed there is nothing over the first disposition. -/
theorem sigint_of_none_installed (h : Layered disposition stack process) (hnone : process.NoneInstalled) :
    process.sigint = disposition := by
  obtain ⟨hstacked, -, -, -⟩ := h
  cases stack with
  | nil => exact hstacked
  | cons top below =>
    have htop := hnone top
    rw [hstacked.2.1] at htop
    cases htop

theorem dispatch_ends (h : Layered disposition stack process) : process.DispatchEnds :=
  Process.dispatch_ends_iff.mpr (h.stacked.passing_ends h.base)

end Layered

namespace Process

/-- SIGINT handlers that take turns compose. In every run in which a handler is
    restored only while SIGINT is handled by it, and installed only while no
    other one passes SIGINT on to it, the first disposition is back whenever no
    handler is installed, and every SIGINT comes to its end. -/
theorem handlers_compose_in_turn {shutdown_coordinator : Nat → Nat} {disposition : Option SigintHandler}
    {operations : List Operation}
    (hturn : ∀ before operation rest middle, operations = before ++ operation :: rest →
      execute perform (.init shutdown_coordinator disposition) before = some middle → middle.InTurn operation) :
    ∃ process, execute perform (.init shutdown_coordinator disposition) operations = some process ∧
      (process.NoneInstalled → process.sigint = disposition) ∧ process.DispatchEnds := by
  suffices hlayers : ∃ process stack,
      execute perform (.init shutdown_coordinator disposition) operations = some process ∧
        Layered disposition stack process by
    obtain ⟨process, stack, hrun, hlayered⟩ := hlayers
    exact ⟨process, hrun, hlayered.sigint_of_none_installed, hlayered.dispatch_ends⟩
  induction operations using List.reverseRecOn with
  | nil => exact ⟨_, [], rfl, .init shutdown_coordinator disposition⟩
  | append_singleton before operation ih =>
    obtain ⟨middle, stack, hrun, hlayered⟩ := ih fun earlier other rest process hsplit =>
      hturn earlier other (rest ++ [operation]) process (by rw [hsplit, List.append_assoc]; rfl)
    obtain ⟨process, above, hstep, hnext⟩ := hlayered.perform (hturn before operation [] middle rfl hrun)
    exact ⟨process, above, (execute_concat perform).mpr ⟨middle, hrun, hstep⟩, hnext⟩

/-- Two handlers, the second over the first, restored in the reverse order. -/
def nested_handlers : List Operation := [.install 0, .install 1, .restore 1, .restore 0]

theorem nested_handlers_compose :
    ∃ process, execute perform (.init (fun _ => 0) (some (.callable "default_int_handler"))) nested_handlers =
        some process ∧
      (process.NoneInstalled → process.sigint = some (.callable "default_int_handler")) ∧ process.DispatchEnds := by
  apply handlers_compose_in_turn
  intro before operation rest middle hsplit
  revert middle
  revert before operation rest
  simp only [nested_handlers, forall_split_cons]
  refine ⟨?_, ?_, ?_, ?_, by simp⟩
  · rintro middle ⟨⟩ - other
    exact nofun
  · rintro middle hmiddle - other
    obtain rfl : _ = middle := Option.some.inj hmiddle
    match other with
    | 0 => exact nofun
    | _ + 1 => exact nofun
  · rintro middle hmiddle - -
    obtain rfl : _ = middle := Option.some.inj hmiddle
    rfl
  · rintro middle hmiddle - -
    obtain rfl : _ = middle := Option.some.inj hmiddle
    rfl

/-- Two handlers restored in the order in which they were installed. -/
def crossed_handlers : List Operation := [.install 0, .install 1, .restore 0, .restore 1]

/-- The second handler writes the first one back, which is not installed any
    more. -/
theorem crossed_handlers_do_not_compose :
    ¬ ∀ (shutdown_coordinator : Nat → Nat) (disposition : Option SigintHandler) (operations : List Operation)
      (process : Process), execute perform (.init shutdown_coordinator disposition) operations = some process →
        (process.NoneInstalled → process.sigint = disposition) ∧ process.DispatchEnds := by
  intro hclaim
  obtain ⟨process, hrun⟩ : ∃ process, execute perform
      (.init (fun _ => 0) (some (.callable "default_int_handler"))) crossed_handlers = some process := ⟨_, rfl⟩
  have hnone : process.NoneInstalled := by
    cases hrun
    intro handler
    match handler with
    | 0 => rfl
    | 1 => rfl
    | _ + 2 => rfl
  have hback := (hclaim _ _ _ _ hrun).1 hnone
  cases hrun
  cases hback

/-- Once installed again, the two handlers pass SIGINT on to each other. -/
theorem crossed_handlers_never_end :
    ∃ process, execute perform (.init (fun _ => 0) (some (.callable "default_int_handler")))
        (crossed_handlers ++ [.install 1, .install 0]) = some process ∧ ¬ process.DispatchEnds := by
  obtain ⟨process, hrun⟩ : ∃ process, execute perform
      (.init (fun _ => 0) (some (.callable "default_int_handler"))) (crossed_handlers ++ [.install 1, .install 0]) =
        some process := ⟨_, rfl⟩
  have hdown : PassesOn process.handlers (.handle_sigint 0) (.handle_sigint 1) := by
    cases hrun
    exact .original rfl (by decide)
  have hback : PassesOn process.handlers (.handle_sigint 1) (.handle_sigint 0) := by
    cases hrun
    exact .original rfl (by decide)
  have hsigint : process.sigint = some (.handle_sigint 0) := by
    cases hrun
    rfl
  refine ⟨process, hrun, ?_⟩
  rw [dispatch_ends_iff]
  intro hends
  exact not_acc_of_cycle (Relation.transGen_swap.mpr (.tail (.single hdown) hback)) (hends _ hsigint)

end Process

end response_bandwidth_limiter.signals

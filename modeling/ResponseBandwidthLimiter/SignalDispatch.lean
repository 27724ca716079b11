import Mathlib.Logic.Function.Iterate
import ResponseBandwidthLimiter.SignalChain

open collections
open response_bandwidth_limiter.shutdown

namespace response_bandwidth_limiter.shutdown

/-- What one SIGINT does to a coordinator. -/
def ShutdownCoordinator.escalate (self : ShutdownCoordinator) : ShutdownCoordinator :=
  self.begin_shutdown (if self.shutting_down then .abort else .drain)

end response_bandwidth_limiter.shutdown

namespace response_bandwidth_limiter.signals

namespace Process

/-- The process after its coordinators have heard a SIGINT, each once for every
    handler of it. -/
def heard (self : Process) (stack : List Nat) : Process :=
  { self with
    coordinators := fun coordinator =>
      ShutdownCoordinator.escalate^[stack.countP
        (fun handler => (self.handlers handler).shutdown_coordinator = coordinator)] (self.coordinators coordinator) }

theorem heard_nil (self : Process) : self.heard [] = self := rfl

theorem heard_cons (self : Process) (handler : Nat) (stack : List Nat) :
    self.heard (handler :: stack) =
      (self.update_coordinator (self.handlers handler).shutdown_coordinator ShutdownCoordinator.escalate).heard
        stack := by
  have hcoordinators : ∀ coordinator, (self.heard (handler :: stack)).coordinators coordinator =
      ((self.update_coordinator (self.handlers handler).shutdown_coordinator ShutdownCoordinator.escalate).heard
        stack).coordinators coordinator := by
    intro coordinator
    simp only [heard, update_coordinator, List.countP_cons]
    by_cases hsame : (self.handlers handler).shutdown_coordinator = coordinator
    · subst hsame
      simp only [decide_true, if_true, Function.update_self, Function.iterate_succ_apply]
      rfl
    · simp only [decide_eq_true_eq, hsame, if_false, Nat.add_zero, Function.update_of_ne (Ne.symm hsame)]
      rfl
  exact congrArg (fun coordinators => { self with coordinators }) (funext hcoordinators)

/-- What installing a handler leaves alone. -/
theorem installed_shutdown_coordinator (self : Process) (handler other : Nat) :
    ((self.installed handler).handlers other).shutdown_coordinator =
      (self.handlers other).shutdown_coordinator := by
  by_cases hsame : other = handler
  · subst hsame
    rw [self.installed_handlers_self]
  · rw [self.installed_handlers_of_ne hsame]

theorem restored_shutdown_coordinator (self : Process) (handler other : Nat) (original_handler : SigintHandler) :
    ((self.restored handler original_handler).handlers other).shutdown_coordinator =
      (self.handlers other).shutdown_coordinator := by
  by_cases hsame : other = handler
  · subst hsame
    rw [self.restored_handlers_self]
  · rw [self.restored_handlers_of_ne original_handler hsame]

end Process

/-- What is left of a SIGINT below the last handler. -/
inductive Quiet : Frame Process Lock SigintHandler → Prop
  | done {held : List Lock} : Quiet ⟨held, .done ()⟩
  | raised {held : List Lock} : Quiet ⟨held, .raise⟩
  | callable (name : String) {held : List Lock} : Quiet ⟨held, (SigintHandler.callable name).code⟩

/-- Quiet frames write nothing, and stay quiet. -/
theorem Quiet.proceed {frames : List (Frame Process Lock SigintHandler)} {memory : Process} {next : MainThread}
    {outcome : Bool} (hquiet : ∀ frame ∈ frames, Quiet frame)
    (hstep : Thread.proceed SigintHandler.code ⟨memory, frames⟩ outcome = some next) :
    next.memory = memory ∧ ∀ frame ∈ next.frames, Quiet frame := by
  cases frames with
  | nil => cases hstep
  | cons frame below =>
    have hbelow : ∀ lower ∈ below, Quiet lower := fun lower hlower => hquiet lower (List.mem_cons_of_mem _ hlower)
    cases hquiet frame List.mem_cons_self with
    | done =>
      obtain ⟨-, hstep⟩ := Option.ite_none_right_eq_some.mp hstep
      cases hstep
      exact ⟨rfl, hbelow⟩
    | raised =>
      cases hstep
      refine ⟨rfl, ?_⟩
      cases below with
      | nil => exact hbelow
      | cons lower rest =>
        exact List.forall_mem_cons.mpr ⟨.raised, fun other hother => hbelow other (List.mem_cons_of_mem _ hother)⟩
    | callable name =>
      cases hstep
      refine ⟨rfl, List.forall_mem_cons.mpr ⟨?_, hbelow⟩⟩
      cases outcome with
      | true => exact .raised
      | false => exact .done

theorem Quiet.execute {frames : List (Frame Process Lock SigintHandler)} {memory : Process} {final : MainThread}
    {outcomes : List Bool} (hquiet : ∀ frame ∈ frames, Quiet frame)
    (hexecute : execute (Thread.proceed SigintHandler.code) ⟨memory, frames⟩ outcomes = some final) :
    final.memory = memory := by
  induction outcomes generalizing frames with
  | nil =>
    cases hexecute
    rfl
  | cons outcome outcomes ih =>
    rw [execute_cons, Option.bind_eq_some_iff] at hexecute
    obtain ⟨⟨_, later⟩, hstep, hexecute⟩ := hexecute
    obtain ⟨rfl, hlater⟩ := Quiet.proceed hquiet hstep
    exact ih hlater hexecute

namespace ShutdownSignalHandler

theorem begin_and_consult_escalates (handler : Nat) (process : Process) :
    (begin_and_consult handler).run process =
      some ((process.handlers handler).original_sigint_handler,
        process.update_coordinator
          (process.handlers handler).shutdown_coordinator ShutdownCoordinator.escalate) := by
  let index := (process.handlers handler).shutdown_coordinator
  have hescalate : process.update_coordinator index
      (·.begin_shutdown (if (process.coordinators index).shutting_down then .abort else .drain)) =
        process.update_coordinator index ShutdownCoordinator.escalate := Process.update_coordinator_congr rfl
  rw [← hescalate]
  simp [begin_and_consult, get, coordinator.is_shutting_down, coordinator.get, coordinator.begin_shutdown_run, index]
  rfl

end ShutdownSignalHandler

/-- SIGINT on its way down a stack is heard once for every handler of it. -/
theorem Stacked.heard {process : Process} {disposition : SigintHandler} {top : Nat} {stack : List Nat}
    {sigint : Option SigintHandler} (h : Stacked process.handlers (some disposition) (top :: stack) sigint)
    (hnodup : (top :: stack).Nodup) (hother : ∀ handler, disposition ≠ .handle_sigint handler)
    {below : List (Frame Process Lock SigintHandler)} (hquiet : ∀ frame ∈ below, Quiet frame) {final : MainThread}
    {outcomes : List Bool}
    (hexecute : execute (Thread.proceed SigintHandler.code)
      ⟨process, ⟨[], ShutdownSignalHandler.handle_sigint top⟩ :: below⟩ outcomes = some final)
    (hfinal : final.frames = []) : final.memory = process.heard (top :: stack) := by
  induction stack generalizing process top sigint below outcomes with
  | nil =>
    obtain ⟨-, -, hbelow⟩ := h
    rw [ShutdownSignalHandler.handle_sigint_eq] at hexecute
    obtain ⟨rest, hrest⟩ := Thread.passes trivial (ShutdownSignalHandler.begin_and_consult_follows top)
      (ShutdownSignalHandler.begin_and_consult_escalates top process) hexecute hfinal
    have horiginal : (process.handlers top).original_sigint_handler = some disposition := hbelow
    rw [horiginal] at hrest
    rw [Process.heard_cons, Process.heard_nil]
    cases disposition with
    | sig_dfl => exact Quiet.execute (List.forall_mem_cons.mpr ⟨.raised, hquiet⟩) hrest
    | sig_ign => exact Quiet.execute (List.forall_mem_cons.mpr ⟨.done, hquiet⟩) hrest
    | handle_sigint handler => exact absurd rfl (hother handler)
    | callable name =>
      have hpass : ShutdownSignalHandler.pass_on top (some (.callable name)) = .invoke (.callable name) := rfl
      rw [hpass] at hrest
      cases rest with
      | nil =>
        cases hrest
        cases hfinal
      | cons outcome rest =>
        exact Quiet.execute (List.forall_mem_cons.mpr
          ⟨.callable name, List.forall_mem_cons.mpr ⟨.done, hquiet⟩⟩) hrest
  | cons next stack ih =>
    obtain ⟨-, -, hbelow⟩ := h
    obtain ⟨hfresh, hnodup⟩ := List.nodup_cons.mp hnodup
    rw [ShutdownSignalHandler.handle_sigint_eq] at hexecute
    obtain ⟨rest, hrest⟩ := Thread.passes trivial (ShutdownSignalHandler.begin_and_consult_follows top)
      (ShutdownSignalHandler.begin_and_consult_escalates top process) hexecute hfinal
    have hne : SigintHandler.handle_sigint next ≠ .handle_sigint top := by
      rintro ⟨⟩
      exact hfresh List.mem_cons_self
    have hpass : ShutdownSignalHandler.pass_on top (some (.handle_sigint next)) = .invoke (.handle_sigint next) :=
      if_neg hne
    rw [hbelow.1, hpass] at hrest
    rw [Process.heard_cons]
    cases rest with
    | nil =>
      cases hrest
      cases hfinal
    | cons outcome rest => exact ih hbelow hnodup (List.forall_mem_cons.mpr ⟨.done, hquiet⟩) hrest

/-- What a handler of a stack remembers is the next one or the first disposition. -/
theorem Stacked.original_of_mem {handlers : Nat → ShutdownSignalHandler} {disposition sigint : Option SigintHandler}
    {stack : List Nat} (h : Stacked handlers disposition stack sigint) {handler : Nat} (hmem : handler ∈ stack) :
    (handlers handler).original_sigint_handler = disposition ∨
      ∃ next ∈ stack, (handlers handler).original_sigint_handler = some (.handle_sigint next) := by
  induction stack generalizing sigint with
  | nil => cases hmem
  | cons top below ih =>
    obtain ⟨-, -, hbelow⟩ := h
    rcases List.mem_cons.mp hmem with rfl | hmem
    · cases below with
      | nil => exact Or.inl hbelow
      | cons next below => exact Or.inr ⟨next, by simp, hbelow.1⟩
    · obtain hlast | ⟨next, hnext, horiginal⟩ := ih hbelow hmem
      · exact Or.inl hlast
      · exact Or.inr ⟨next, List.mem_cons_of_mem _ hnext, horiginal⟩

namespace Layered

variable {disposition : SigintHandler} {stack : List Nat} {process : Process} {handler : Nat}

/-- A handler that is not installed yet goes on top of those that are. -/
theorem install (h : Layered (some disposition) stack process)
    (hother : ∀ handler, disposition ≠ .handle_sigint handler) (hnew : handler ∉ stack) :
    process.perform (.install handler) = some (process.installed handler) ∧
      Layered (some disposition) (handler :: stack) (process.installed handler) := by
  have hidle := (h.idle handler hnew).1
  refine ⟨ShutdownSignalHandler.install_leaves hidle, h.installed hidle ?_⟩
  intro other hremembers
  by_cases hmem : other ∈ stack
  · rcases h.stacked.original_of_mem hmem with hlast | ⟨next, hnext, horiginal⟩
    · exact hother handler (Option.some.inj (hlast.symm.trans hremembers))
    · cases horiginal.symm.trans hremembers
      exact hnew hnext
  · rw [(h.idle other hmem).2] at hremembers
    cases hremembers

theorem install_again (h : Layered (some disposition) stack process) (hmem : handler ∈ stack) :
    process.perform (.install handler) = some process :=
  ShutdownSignalHandler.install_leaves_of_installed ((h.installed_iff handler).mpr hmem)

/-- The handler on top writes back what it remembers. -/
theorem restore (h : Layered (some disposition) (handler :: stack) process) :
    ∃ original_handler,
      (ShutdownSignalHandler.restore handler).run process = some ((), process.restored handler original_handler) ∧
        Layered (some disposition) stack (process.restored handler original_handler) := by
  have hinstalled := (h.installed_iff handler).mpr List.mem_cons_self
  obtain ⟨original_handler, horiginal⟩ :
      ∃ original_handler, (process.handlers handler).original_sigint_handler = some original_handler := by
    rcases h.stacked.original_of_mem List.mem_cons_self with hlast | ⟨next, -, horiginal⟩
    · exact ⟨disposition, hlast⟩
    · exact ⟨_, horiginal⟩
  refine ⟨original_handler, ?_, h.restored hinstalled horiginal h.stacked.1⟩
  simp [ShutdownSignalHandler.restore, ShutdownSignalHandler.get, ShutdownSignalHandler.set, set_sigint, hinstalled,
    horiginal, Process.restored, Process.update_handler]

theorem restore_idle (h : Layered (some disposition) stack process) (hnew : handler ∉ stack) :
    (ShutdownSignalHandler.restore handler).run process = some ((), process) := by
  simp [ShutdownSignalHandler.restore, ShutdownSignalHandler.get, (h.idle handler hnew).1]

end Layered

end response_bandwidth_limiter.signals

import Mathlib.Tactic.SplitIfs

namespace response_bandwidth_limiter.shutdown

inductive ShutdownMode where
  | drain
  | abort
  deriving DecidableEq, Repr

structure ShutdownCoordinator where
  shutting_down : Bool
  mode : Option ShutdownMode
  in_flight : Nat
  deriving DecidableEq, Repr

namespace ShutdownCoordinator

def init : ShutdownCoordinator := ⟨false, none, 0⟩

def is_shutting_down (self : ShutdownCoordinator) : Bool := self.shutting_down

def should_abort (self : ShutdownCoordinator) : Bool := self.shutting_down && self.mode = some .abort

def should_flush (self : ShutdownCoordinator) : Bool := self.shutting_down && self.mode = some .drain

def in_flight_count (self : ShutdownCoordinator) : Nat := self.in_flight

def begin_shutdown (self : ShutdownCoordinator) (mode : ShutdownMode) : ShutdownCoordinator :=
  if self.shutting_down then
    if self.mode = some .drain ∧ mode = .abort then { self with mode := some .abort } else self
  else { self with shutting_down := true, mode := some mode }

def enter_response (self : ShutdownCoordinator) : ShutdownCoordinator :=
  { self with in_flight := self.in_flight + 1 }

def exit_response (self : ShutdownCoordinator) : ShutdownCoordinator :=
  if self.in_flight > 0 then { self with in_flight := self.in_flight - 1 } else self

/-- One turn of the loop of `wait_until_drained`: its answer, or none when it
    goes on to sleep. -/
def wait_until_drained (self : ShutdownCoordinator) (deadline_passed : Bool) : Option Bool :=
  if self.in_flight = 0 then some true
  else if deadline_passed then some false
  else none

def reset (_ : ShutdownCoordinator) : ShutdownCoordinator := init

@[simp] theorem enter_response_in_flight (self : ShutdownCoordinator) :
    self.enter_response.in_flight = self.in_flight + 1 := rfl

@[simp] theorem begin_shutdown_in_flight (self : ShutdownCoordinator) (mode : ShutdownMode) :
    (self.begin_shutdown mode).in_flight = self.in_flight := by
  unfold begin_shutdown
  split_ifs <;> rfl

@[simp] theorem begin_shutdown_shutting_down (self : ShutdownCoordinator) (mode : ShutdownMode) :
    (self.begin_shutdown mode).shutting_down = true := by
  unfold begin_shutdown
  split_ifs with hbegun <;> simp_all

/-- Leaving undoes entering. -/
theorem exit_response_in_flight {self : ShutdownCoordinator} {others : Nat}
    (hinside : self.in_flight = others + 1) : self.exit_response.in_flight = others := by
  simp [exit_response, hinside]

/-- The wait ends well only when nothing is in flight. -/
theorem wait_until_drained_true_iff {self : ShutdownCoordinator} {deadline_passed : Bool} :
    self.wait_until_drained deadline_passed = some true ↔ self.in_flight = 0 := by
  unfold wait_until_drained
  split_ifs <;> simp_all

end ShutdownCoordinator

end response_bandwidth_limiter.shutdown

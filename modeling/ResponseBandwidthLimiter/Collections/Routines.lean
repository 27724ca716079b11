import Mathlib.Data.List.Basic
import Mathlib.Tactic.SplitIfs
import ResponseBandwidthLimiter.Collections.Transitions

namespace collections

/-- The code of a thread: it takes and gives back locks, reads and writes a
    memory, calls other code, and raises. A choice is made outside the code. -/
inductive Routine (S L C A : Type) where
  | done (result : A)
  | acquire (lock : L) (rest : Routine S L C A)
  | release (lock : L) (rest : Routine S L C A)
  | access (update : S → S) (rest : S → Routine S L C A)
  | choose (rest : Bool → Routine S L C A)
  | call (callee : C) (rest : Routine S L C A)
  | raise

namespace Routine

variable {S L C A B : Type}

def bind (next : A → Routine S L C B) : Routine S L C A → Routine S L C B
  | .done result => next result
  | .acquire lock rest => .acquire lock (rest.bind next)
  | .release lock rest => .release lock (rest.bind next)
  | .access update rest => .access update (fun memory => (rest memory).bind next)
  | .choose rest => .choose (fun outcome => (rest outcome).bind next)
  | .call callee rest => .call callee (rest.bind next)
  | .raise => .raise

instance : Monad (Routine S L C) where
  pure := .done
  bind routine next := routine.bind next

theorem bind_assoc {D : Type} (routine : Routine S L C A) (next : A → Routine S L C B) (last : B → Routine S L C D) :
    (routine.bind next).bind last = routine.bind (fun result => (next result).bind last) := by
  induction routine with
  | done result => rfl
  | acquire lock rest ih => simp only [bind, ih]
  | release lock rest ih => simp only [bind, ih]
  | access update rest ih => simp only [bind, ih]
  | choose rest ih => simp only [bind, ih]
  | call callee rest ih => simp only [bind, ih]
  | raise => rfl

def read (value : S → A) : Routine S L C A := .access id (fun memory => .done (value memory))

def write (update : S → S) : Routine S L C Unit := .access update (fun _ => .done ())

def invoke (callee : C) : Routine S L C Unit := .call callee (.done ())

/-- The body with the lock held, which is given back at its end. -/
def with_lock (lock : L) (body : Routine S L C A) : Routine S L C A :=
  .acquire lock (body.bind (fun result => .release lock (.done result)))

/-- What a routine does to the memory when nothing comes in between. A choice, a
    call and an exception end it. -/
def run : Routine S L C A → S → Option (A × S)
  | .done result, memory => some (result, memory)
  | .acquire _ rest, memory => rest.run memory
  | .release _ rest, memory => rest.run memory
  | .access update rest, memory => (rest memory).run (update memory)
  | .choose _, _ => none
  | .call _ _, _ => none
  | .raise, _ => none

theorem run_bind (routine : Routine S L C A) (next : A → Routine S L C B) (memory : S) :
    (routine.bind next).run memory = (routine.run memory).bind (fun after => (next after.1).run after.2) := by
  induction routine generalizing memory with
  | done result => rfl
  | acquire lock rest ih => exact ih memory
  | release lock rest ih => exact ih memory
  | access update rest ih => exact ih memory (update memory)
  | choose rest => rfl
  | call callee rest => rfl
  | raise => rfl

@[simp] theorem run_pure (result : A) (memory : S) :
    (pure result : Routine S L C A).run memory = some (result, memory) := rfl

@[simp] theorem run_monad_bind (routine : Routine S L C A) (next : A → Routine S L C B) (memory : S) :
    (routine >>= next).run memory = (routine.run memory).bind (fun after => (next after.1).run after.2) :=
  run_bind routine next memory

@[simp] theorem run_read (value : S → A) (memory : S) :
    (read value : Routine S L C A).run memory = some (value memory, memory) := rfl

@[simp] theorem run_write (update : S → S) (memory : S) :
    (write update : Routine S L C Unit).run memory = some ((), update memory) := rfl

@[simp] theorem run_with_lock (lock : L) (body : Routine S L C A) (memory : S) :
    (with_lock lock body).run memory = body.run memory := by
  simp only [with_lock, run, run_bind]
  exact Option.bind_fun_some _

@[simp] theorem run_ite (condition : Prop) [Decidable condition] (first second : Routine S L C A) (memory : S) :
    (if condition then first else second).run memory =
      if condition then first.run memory else second.run memory := apply_ite (run · memory) condition first second

@[simp] theorem run_discard (routine : Routine S L C A) (memory : S) :
    (discard routine).run memory = (routine.run memory).map (fun after => ((), after.2)) := by
  rw [Option.map_eq_bind]
  exact run_bind routine (fun _ => .done ()) memory

/-- The memory that a routine leaves when nothing comes in between, whether it
    returns or raises. A choice and a call end it. -/
def leaves : Routine S L C A → S → Option S
  | .done _, memory => some memory
  | .acquire _ rest, memory => rest.leaves memory
  | .release _ rest, memory => rest.leaves memory
  | .access update rest, memory => (rest memory).leaves (update memory)
  | .choose _, _ => none
  | .call _ _, _ => none
  | .raise, memory => some memory

theorem leaves_of_run {routine : Routine S L C A} {memory : S} {after : A × S}
    (h : routine.run memory = some after) : routine.leaves memory = some after.2 := by
  induction routine generalizing memory with
  | done result =>
    cases h
    rfl
  | acquire lock rest ih => exact ih h
  | release lock rest ih => exact ih h
  | access update rest ih => exact ih memory h
  | choose rest => cases h
  | call callee rest => cases h
  | raise => cases h

/-- The second of two routines is reached when the first one returns. -/
@[simp] theorem leaves_monad_bind (routine : Routine S L C A) (next : A → Routine S L C B) (memory : S) :
    (routine >>= next).leaves memory =
      (routine.run memory).elim (routine.leaves memory) (fun after => (next after.1).leaves after.2) := by
  change (routine.bind next).leaves memory = _
  induction routine generalizing memory with
  | done result => rfl
  | acquire lock rest ih => exact ih memory
  | release lock rest ih => exact ih memory
  | access update rest ih => exact ih memory (update memory)
  | choose rest => rfl
  | call callee rest => rfl
  | raise => rfl

@[simp] theorem leaves_with_lock (lock : L) (body : Routine S L C A) (memory : S) :
    (with_lock lock body).leaves memory = body.leaves memory := by
  have hbody : (with_lock lock body).leaves memory =
      (body >>= fun result => .release lock (.done result)).leaves memory := rfl
  rw [hbody, leaves_monad_bind]
  cases hrun : body.run memory with
  | none => rfl
  | some after => exact (leaves_of_run hrun).symm

section Rules

variable [DecidableEq L]

/-- What a routine may do from some held locks on: it keeps a property of the
    memory, takes no lock twice and only some locks, makes only some calls, and
    ends in a certain way. -/
def Follows (keeps : S → Prop) (locks : L → Prop) (calls : List L → C → Prop) (ends : List L → A → Prop) :
    List L → Routine S L C A → Prop
  | held, .done result => ends held result
  | held, .acquire lock rest =>
    lock ∉ held ∧ locks lock ∧ Follows keeps locks calls ends (lock :: held) rest
  | held, .release lock rest => Follows keeps locks calls ends (held.erase lock) rest
  | held, .access update rest =>
    ∀ memory, keeps memory → keeps (update memory) ∧ Follows keeps locks calls ends held (rest memory)
  | held, .choose rest => ∀ outcome, Follows keeps locks calls ends held (rest outcome)
  | held, .call callee rest => calls held callee ∧ Follows keeps locks calls ends held rest
  | _, .raise => True

variable {keeps : S → Prop} {locks : L → Prop} {calls : List L → C → Prop} {ends : List L → A → Prop}
  {held : List L}

theorem follows_bind {ends : List L → B → Prop} (routine : Routine S L C A) (next : A → Routine S L C B) :
    Follows keeps locks calls ends held (routine.bind next) ↔
      Follows keeps locks calls (fun held result => Follows keeps locks calls ends held (next result)) held
        routine := by
  induction routine generalizing held with
  | done result => rfl
  | acquire lock rest ih => simp only [bind, Follows, ih]
  | release lock rest ih => simp only [bind, Follows, ih]
  | access update rest ih => simp only [bind, Follows, ih]
  | choose rest ih => simp only [bind, Follows, ih]
  | call callee rest ih => simp only [bind, Follows, ih]
  | raise => rfl

@[simp] theorem follows_pure (result : A) :
    Follows keeps locks calls ends held (pure result) ↔ ends held result := Iff.rfl

@[simp] theorem follows_monad_bind {ends : List L → B → Prop} (routine : Routine S L C A)
    (next : A → Routine S L C B) :
    Follows keeps locks calls ends held (routine >>= next) ↔
      Follows keeps locks calls (fun held result => Follows keeps locks calls ends held (next result)) held
        routine := follows_bind routine next

@[simp] theorem follows_raise : Follows keeps locks calls ends held (.raise : Routine S L C A) ↔ True := Iff.rfl

@[simp] theorem follows_read (value : S → A) :
    Follows keeps locks calls ends held (read value) ↔
      ∀ memory, keeps memory → keeps memory ∧ ends held (value memory) := Iff.rfl

@[simp] theorem follows_write {ends : List L → Unit → Prop} (update : S → S) :
    Follows keeps locks calls ends held (write update) ↔
      ∀ memory, keeps memory → keeps (update memory) ∧ ends held () := Iff.rfl

@[simp] theorem follows_invoke {ends : List L → Unit → Prop} (callee : C) :
    Follows keeps locks calls ends held (invoke callee) ↔ calls held callee ∧ ends held () := Iff.rfl

@[simp] theorem follows_with_lock (lock : L) (body : Routine S L C A) :
    Follows keeps locks calls ends held (with_lock lock body) ↔
      lock ∉ held ∧ locks lock ∧
        Follows keeps locks calls (fun held result => ends (held.erase lock) result) (lock :: held) body := by
  simp only [with_lock, Follows, follows_bind]

@[simp] theorem follows_ite (condition : Prop) [Decidable condition] (first second : Routine S L C A) :
    Follows keeps locks calls ends held (if condition then first else second) ↔
      (condition → Follows keeps locks calls ends held first) ∧
        (¬condition → Follows keeps locks calls ends held second) := by
  split_ifs with hcondition <;> simp [hcondition]

@[simp] theorem follows_discard {ends : List L → Unit → Prop} (routine : Routine S L C A) :
    Follows keeps locks calls ends held (discard routine) ↔
      Follows keeps locks calls (fun held _ => ends held ()) held routine :=
  follows_bind routine (fun _ => .done ())

end Rules

end Routine

end collections

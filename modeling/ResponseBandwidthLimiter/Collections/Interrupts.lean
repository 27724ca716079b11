import Mathlib.Logic.Relation
import ResponseBandwidthLimiter.Collections.Routines
import ResponseBandwidthLimiter.Collections.Transitions

namespace collections

variable {S L C V : Type}

/-- A call on the stack of a thread, with the locks that it holds. -/
structure Frame (S L C : Type) where
  held : List L
  code : Routine S L C Unit

/-- A thread with its frames, the running one first. -/
structure Thread (S L C : Type) where
  memory : S
  frames : List (Frame S L C)

/-- An exception goes on in the frame below, and the locks of a frame that it
    leaves are given back. -/
def unwind : List (Frame S L C) → List (Frame S L C)
  | [] => []
  | frame :: below => { frame with code := .raise } :: below

namespace Thread

variable [DecidableEq L]

def holds (thread : Thread S L C) (lock : L) : Bool := thread.frames.any (fun frame => lock ∈ frame.held)

/-- The running frame takes its next step. A lock that any frame holds makes it
    wait, its own locks included. -/
def proceed (invoke : C → Routine S L C Unit) (thread : Thread S L C) (outcome : Bool) : Option (Thread S L C) :=
  match thread.frames with
  | [] => none
  | ⟨held, code⟩ :: below =>
    match code with
    | .done _ => if held.isEmpty then some ⟨thread.memory, below⟩ else none
    | .acquire lock rest =>
      if thread.holds lock then none else some ⟨thread.memory, ⟨lock :: held, rest⟩ :: below⟩
    | .release lock rest => some ⟨thread.memory, ⟨held.erase lock, rest⟩ :: below⟩
    | .access update rest => some ⟨update thread.memory, ⟨held, rest thread.memory⟩ :: below⟩
    | .choose rest => some ⟨thread.memory, ⟨held, rest outcome⟩ :: below⟩
    | .call callee rest => some ⟨thread.memory, ⟨[], invoke callee⟩ :: ⟨held, rest⟩ :: below⟩
    | .raise => some ⟨thread.memory, unwind below⟩

/-- The running frame wants a lock that a suspended frame below it holds. -/
def Deadlocked (thread : Thread S L C) : Prop :=
  ∃ frame below lock rest, thread.frames = frame :: below ∧ frame.code = .acquire lock rest ∧
    ∃ lower ∈ below, lock ∈ lower.held

theorem holds_eq_false_iff {thread : Thread S L C} {lock : L} :
    thread.holds lock = false ↔ ∀ frame ∈ thread.frames, lock ∉ frame.held := by
  simp [holds]

end Thread

/-- Callees that interrupts may run: each keeps a view of the memory, takes only
    some locks, and calls the next callees while it holds none. -/
structure Discipline (S L C V : Type) [DecidableEq L] where
  invoke : C → Routine S L C Unit
  view : S → V
  locks : V → C → L → Prop
  next : V → C → C → Prop
  invoke_follows : ∀ v callee, (invoke callee).Follows (fun memory => view memory = v) (locks v callee)
    (fun held other => held = [] ∧ next v callee other) (fun held _ => held = []) []

variable [DecidableEq L] (discipline : Discipline S L C V)

/-- No frame holds a lock that a callee takes, itself or through the callees
    after it, of which there is a last one. -/
structure Discipline.Clear (v : V) (callee : C) (frames : List (Frame S L C)) : Prop where
  free : ∀ later lock, Relation.ReflTransGen (discipline.next v) callee later → discipline.locks v later lock →
    ∀ frame ∈ frames, lock ∉ frame.held
  ends : Acc (fun later earlier => discipline.next v earlier later) callee

/-- The frames of a thread that runs any one routine without calls, with
    callees of interrupts above it. -/
inductive Nested (v : V) : List (Frame S L C) → Prop
  | nil : Nested v []
  | bottom {held : List L} {code : Routine S L C Unit}
      (hcode : code.Follows (fun _ => True) (fun _ => True) (fun _ _ => False) (fun held _ => held = []) held) :
      Nested v [⟨held, code⟩]
  | interrupt {held : List L} {code : Routine S L C Unit} {below : List (Frame S L C)} {callee : C}
      (hbelow : Nested v below) (hclear : discipline.Clear v callee below)
      (hcode : code.Follows (fun memory => discipline.view memory = v) (discipline.locks v callee)
        (fun held other => held = [] ∧ discipline.next v callee other) (fun held _ => held = []) held) :
      Nested v (⟨held, code⟩ :: below)

variable {discipline} {v : V} {thread next : Thread S L C} {outcome : Bool}

theorem Discipline.Clear.call {callee other : C} {frames : List (Frame S L C)} {rest : Routine S L C Unit}
    (h : discipline.Clear v callee frames) (hnext : discipline.next v callee other) :
    discipline.Clear v other (⟨[], rest⟩ :: frames) where
  free later lock hlater hlock frame hframe := by
    rcases List.mem_cons.mp hframe with rfl | hframe
    · exact List.not_mem_nil
    · exact h.free later lock (.head hnext hlater) hlock frame hframe
  ends := h.ends.inv hnext

theorem Nested.unwind {frames : List (Frame S L C)} (h : Nested discipline v frames) :
    Nested discipline v (unwind frames) := by
  cases h with
  | nil => exact .nil
  | bottom hcode => exact .bottom trivial
  | interrupt hbelow hclear hcode => exact .interrupt hbelow hclear trivial

/-- What the running frame can do in a step: go on, return, call, or raise. -/
theorem Thread.proceed_cases {keeps : S → Prop} {locks : L → Prop} {calls : List L → C → Prop}
    {invoke : C → Routine S L C Unit} {memory : S} {held : List L} {code : Routine S L C Unit}
    {below : List (Frame S L C)} (hcode : code.Follows keeps locks calls (fun held _ => held = []) held)
    (hkeeps : keeps memory)
    (hstep : Thread.proceed invoke ⟨memory, ⟨held, code⟩ :: below⟩ outcome = some next) :
    (∃ held' code', keeps next.memory ∧ next.frames = ⟨held', code'⟩ :: below ∧
      code'.Follows keeps locks calls (fun held _ => held = []) held') ∨
    (next = ⟨memory, below⟩) ∨
    (∃ callee rest, next = ⟨memory, ⟨[], invoke callee⟩ :: ⟨held, rest⟩ :: below⟩ ∧ calls held callee ∧
      rest.Follows keeps locks calls (fun held _ => held = []) held) ∨
    next = ⟨memory, unwind below⟩ := by
  cases code with
  | done result =>
    simp only [Thread.proceed, Option.ite_none_right_eq_some] at hstep
    exact Or.inr (Or.inl (Option.some.inj hstep.2).symm)
  | acquire lock rest =>
    simp only [Thread.proceed, Option.ite_none_left_eq_some] at hstep
    obtain ⟨-, hstep⟩ := hstep
    cases hstep
    exact Or.inl ⟨_, _, hkeeps, rfl, hcode.2.2⟩
  | release lock rest =>
    cases hstep
    exact Or.inl ⟨_, _, hkeeps, rfl, hcode⟩
  | access update rest =>
    cases hstep
    exact Or.inl ⟨_, _, (hcode memory hkeeps).1, rfl, (hcode memory hkeeps).2⟩
  | choose rest =>
    cases hstep
    exact Or.inl ⟨_, _, hkeeps, rfl, hcode outcome⟩
  | call callee rest =>
    cases hstep
    exact Or.inr (Or.inr (Or.inl ⟨callee, rest, rfl, hcode⟩))
  | raise =>
    cases hstep
    exact Or.inr (Or.inr (Or.inr rfl))

/-- The step lemma of nested frames. -/
theorem Nested.proceed (h : Nested discipline (discipline.view thread.memory) thread.frames)
    (hstep : thread.proceed discipline.invoke outcome = some next) :
    Nested discipline (discipline.view next.memory) next.frames := by
  obtain ⟨memory, frames⟩ := thread
  cases h with
  | nil => cases hstep
  | bottom hcode =>
    rcases Thread.proceed_cases hcode trivial hstep with ⟨held, code, -, hframes, hrest⟩ | rfl |
      ⟨callee, rest, -, hcall, -⟩ | rfl
    · rw [hframes]
      exact .bottom hrest
    · exact .nil
    · exact hcall.elim
    · exact .nil
  | interrupt hbelow hclear hcode =>
    rcases Thread.proceed_cases hcode rfl hstep with ⟨held, code, hview, hframes, hrest⟩ | rfl |
      ⟨callee, rest, rfl, ⟨rfl, hnext⟩, hrest⟩ | rfl
    · rw [hframes, hview]
      exact .interrupt hbelow hclear hrest
    · exact hbelow
    · exact .interrupt (.interrupt hbelow hclear hrest) (hclear.call hnext) (discipline.invoke_follows _ callee)
    · exact hbelow.unwind

/-- An interrupt that finds its locks free nests. -/
theorem Nested.interrupted {frames : List (Frame S L C)} {callee : C} (h : Nested discipline v frames)
    (hclear : discipline.Clear v callee frames) :
    Nested discipline v (⟨[], discipline.invoke callee⟩ :: frames) :=
  .interrupt h hclear (discipline.invoke_follows v callee)

theorem Nested.not_deadlocked (h : Nested discipline v thread.frames) : ¬ thread.Deadlocked := by
  rintro ⟨frame, below, lock, rest, hframes, hacquire, lower, hlower, hheld⟩
  rw [hframes] at h
  cases h with
  | bottom hcode => cases hlower
  | interrupt hbelow hclear hcode =>
    cases hacquire
    exact hclear.free _ lock .refl hcode.2.1 lower hlower hheld

/-- A routine whose locks are free below it, and whose callees come back, comes
    back. -/
theorem Thread.comes_back {keeps : S → Prop} {locks : L → Prop} {calls : List L → C → Prop}
    {invoke : C → Routine S L C Unit} {below : List (Frame S L C)}
    (hfree : ∀ lock, locks lock → ∀ frame ∈ below, lock ∉ frame.held)
    (hcalls : ∀ memory held callee rest, keeps memory → calls held callee →
      Inevitable (Thread.proceed invoke)
        (fun final => keeps final.memory ∧
          (final.frames = ⟨held, rest⟩ :: below ∨ final.frames = ⟨held, .raise⟩ :: below))
        ⟨memory, ⟨[], invoke callee⟩ :: ⟨held, rest⟩ :: below⟩)
    {memory : S} {held : List L} {code : Routine S L C Unit} (hkeeps : keeps memory)
    (hcode : code.Follows keeps locks calls (fun held _ => held = []) held) :
    Inevitable (Thread.proceed invoke)
      (fun final => keeps final.memory ∧ (final.frames = below ∨ final.frames = unwind below))
      ⟨memory, ⟨held, code⟩ :: below⟩ := by
  have hraise : ∀ memory held, keeps memory → Inevitable (Thread.proceed invoke)
      (fun final => keeps final.memory ∧ (final.frames = below ∨ final.frames = unwind below))
      ⟨memory, ⟨held, .raise⟩ :: below⟩ :=
    fun memory held hkeeps => .of_step _ (fun _ => rfl) (.now ⟨hkeeps, Or.inr rfl⟩)
  induction code generalizing memory held with
  | done result =>
    obtain rfl : held = [] := hcode
    exact .of_step _ (fun _ => rfl) (.now ⟨hkeeps, Or.inl rfl⟩)
  | acquire lock rest ih =>
    obtain ⟨hown, hlock, hrest⟩ := hcode
    have hholds : (⟨memory, ⟨held, .acquire lock rest⟩ :: below⟩ : Thread S L C).holds lock = false := by
      rw [Thread.holds_eq_false_iff]
      exact List.forall_mem_cons.mpr ⟨hown, hfree lock hlock⟩
    refine .of_step _ (fun outcome => ?_) (ih hkeeps hrest)
    simp [Thread.proceed, hholds]
  | release lock rest ih => exact .of_step _ (fun _ => rfl) (ih hkeeps hcode)
  | access update rest ih =>
    obtain ⟨hkept, hrest⟩ := hcode memory hkeeps
    exact .of_step _ (fun _ => rfl) (ih memory hkept hrest)
  | choose rest ih =>
    refine .later ⟨true, _, rfl⟩ ?_
    rintro outcome _ ⟨⟩
    exact ih outcome hkeeps (hcode outcome)
  | call callee rest ih =>
    refine .of_step _ (fun _ => rfl) ((hcalls memory held callee rest hkeeps hcode.1).trans _ ?_)
    rintro ⟨memory, frames⟩ ⟨hkeeps, rfl | rfl⟩
    · exact ih hkeeps hcode.2
    · exact hraise memory held hkeeps
  | raise => exact hraise memory held hkeeps

/-- A routine that returns, and whose locks are free below it, gets to what comes
    after it. -/
theorem Thread.returns {A : Type} {keeps : S → Prop} {locks : L → Prop} {calls : List L → C → Prop}
    (invoke : C → Routine S L C Unit) {below : List (Frame S L C)}
    (hfree : ∀ lock, locks lock → ∀ frame ∈ below, lock ∉ frame.held) {routine : Routine S L C A}
    (last : A → Routine S L C Unit) {memory after : S} {held : List L} {result : A} (hkeeps : keeps memory)
    (hroutine : routine.Follows keeps locks calls (fun held _ => held = []) held)
    (hrun : routine.run memory = some (result, after)) :
    ∃ labels, execute (Thread.proceed invoke) ⟨memory, ⟨held, routine.bind last⟩ :: below⟩ labels =
      some ⟨after, ⟨[], last result⟩ :: below⟩ := by
  induction routine generalizing memory held with
  | done found =>
    cases hrun
    obtain rfl : held = [] := hroutine
    exact ⟨[], rfl⟩
  | acquire lock rest ih =>
    obtain ⟨hown, hlock, hrest⟩ := hroutine
    have hholds : (⟨memory, ⟨held, (Routine.acquire lock rest).bind last⟩ :: below⟩ : Thread S L C).holds lock =
        false := by
      rw [Thread.holds_eq_false_iff]
      exact List.forall_mem_cons.mpr ⟨hown, hfree lock hlock⟩
    obtain ⟨labels, hlabels⟩ := ih hkeeps hrest hrun
    refine ⟨true :: labels, ?_⟩
    rw [execute_cons, Option.bind_eq_some_iff]
    refine ⟨_, if_neg ?_, hlabels⟩
    rw [Bool.not_eq_true]
    exact hholds
  | release lock rest ih =>
    obtain ⟨labels, hlabels⟩ := ih hkeeps hroutine hrun
    exact ⟨true :: labels, hlabels⟩
  | access update rest ih =>
    obtain ⟨hkept, hrest⟩ := hroutine memory hkeeps
    obtain ⟨labels, hlabels⟩ := ih memory hkept hrest hrun
    exact ⟨true :: labels, hlabels⟩
  | choose rest => cases hrun
  | call callee rest => cases hrun
  | raise => cases hrun

/-- However a thread comes to its end, it gets there through what comes after a
    routine that returns. -/
theorem Thread.passes {A : Type} {keeps : S → Prop} {locks : L → Prop} {calls : List L → C → Prop}
    {invoke : C → Routine S L C Unit} {below : List (Frame S L C)} {routine : Routine S L C A}
    {last : A → Routine S L C Unit} {memory after : S} {held : List L} {result : A} (hkeeps : keeps memory)
    (hroutine : routine.Follows keeps locks calls (fun held _ => held = []) held)
    (hrun : routine.run memory = some (result, after)) {labels : List Bool} {final : Thread S L C}
    (hexecute : execute (Thread.proceed invoke) ⟨memory, ⟨held, routine.bind last⟩ :: below⟩ labels = some final)
    (hfinal : final.frames = []) :
    ∃ rest, execute (Thread.proceed invoke) ⟨after, ⟨[], last result⟩ :: below⟩ rest = some final := by
  induction routine generalizing memory held labels with
  | done found =>
    cases hrun
    obtain rfl : held = [] := hroutine
    exact ⟨labels, hexecute⟩
  | choose rest => cases hrun
  | call callee rest => cases hrun
  | raise => cases hrun
  | acquire lock rest ih =>
    cases labels with
    | nil =>
      cases hexecute
      cases hfinal
    | cons label labels =>
      rw [execute_cons, Option.bind_eq_some_iff] at hexecute
      obtain ⟨next, hnext, hexecute⟩ := hexecute
      obtain ⟨-, hnext⟩ := Option.ite_none_left_eq_some.mp hnext
      cases hnext
      exact ih hkeeps hroutine.2.2 hrun hexecute
  | release lock rest ih =>
    cases labels with
    | nil =>
      cases hexecute
      cases hfinal
    | cons label labels => exact ih hkeeps hroutine hrun hexecute
  | access update rest ih =>
    cases labels with
    | nil =>
      cases hexecute
      cases hfinal
    | cons label labels => exact ih memory (hroutine memory hkeeps).1 (hroutine memory hkeeps).2 hrun hexecute

/-- A callee of an interrupt that finds its locks free comes back. -/
theorem Discipline.Clear.comes_back {callee : C} {below : List (Frame S L C)}
    (hclear : discipline.Clear v callee below) {memory : S} {held : List L} {code : Routine S L C Unit}
    (hview : discipline.view memory = v)
    (hcode : code.Follows (fun memory => discipline.view memory = v) (discipline.locks v callee)
      (fun held other => held = [] ∧ discipline.next v callee other) (fun held _ => held = []) held) :
    Inevitable (Thread.proceed discipline.invoke)
      (fun final => discipline.view final.memory = v ∧ (final.frames = below ∨ final.frames = unwind below))
      ⟨memory, ⟨held, code⟩ :: below⟩ := by
  induction hclear.ends generalizing below memory held code with
  | intro callee _ ih =>
    refine Thread.comes_back (fun lock hlock => hclear.free callee lock .refl hlock) ?_ hview hcode
    rintro memory held other rest hview ⟨rfl, hnext⟩
    exact ih other hnext (hclear.call hnext) hview (discipline.invoke_follows v other)

/-- All frames of nested frames come to their ends. -/
theorem Nested.ends (h : Nested discipline (discipline.view thread.memory) thread.frames) :
    Inevitable (Thread.proceed discipline.invoke) (fun final => final.frames = []) thread := by
  induction hlength : thread.frames.length generalizing thread with
  | zero => exact .now (List.length_eq_zero_iff.mp hlength)
  | succ length ih =>
    obtain ⟨memory, frames⟩ := thread
    cases h with
    | nil => cases hlength
    | bottom hcode =>
      refine (Thread.comes_back nofun (fun _ _ _ _ _ hcall => hcall.elim) trivial hcode).trans _ ?_
      rintro final ⟨-, hframes | hframes⟩
      · exact .now hframes
      · exact .now hframes
    | @interrupt _ _ below _ hbelow hclear hcode =>
      apply (hclear.comes_back rfl hcode).trans _
      rintro ⟨final, frames⟩ ⟨hview, rfl | rfl⟩
      · exact ih (hview ▸ hbelow) (Nat.succ.inj hlength)
      · apply ih (hview ▸ hbelow.unwind)
        cases below <;> exact Nat.succ.inj hlength

end collections

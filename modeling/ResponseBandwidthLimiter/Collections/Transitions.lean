import Mathlib.Data.List.Basic
import Mathlib.Data.List.Induction
import Mathlib.Logic.Relation

namespace collections

section Execution

variable {S L : Type*} (step : S → L → Option S)

/-- The state after a sequence of labels, if all of them were enabled. -/
def execute (state : S) (labels : List L) : Option S := labels.foldlM step state

@[simp] theorem execute_nil (state : S) : execute step state [] = some state := rfl

theorem execute_cons (state : S) (label : L) (rest : List L) :
    execute step state (label :: rest) = (step state label).bind (fun next => execute step next rest) := rfl

theorem execute_append (state : S) (first second : List L) :
    execute step state (first ++ second) =
      (execute step state first).bind (fun middle => execute step middle second) := by
  simp [execute, List.foldlM_append]

theorem execute_concat {state final : S} {before : List L} {label : L} :
    execute step state (before ++ [label]) = some final ↔
      ∃ middle, execute step state before = some middle ∧ step middle label = some final := by
  rw [execute_append, Option.bind_eq_some_iff]
  simp [execute_cons]

/-- The invariant rule, for an invariant that holds at first and that every
    step keeps. -/
theorem execute_invariant {inv : S → Prop} {state final : S} {labels : List L}
    (hinit : inv state) (hstep : ∀ s label s', inv s → step s label = some s' → inv s')
    (h : execute step state labels = some final) : inv final := by
  induction labels generalizing state with
  | nil => exact Option.some.inj h ▸ hinit
  | cons label rest ih =>
    rw [execute_cons, Option.bind_eq_some_iff] at h
    obtain ⟨next, hnext, hrest⟩ := h
    exact ih (hstep _ _ _ hinit hnext) hrest

/-- The same for an invariant that only the steps of this run have to keep. -/
theorem execute_invariant_along {inv : S → Prop} {state final : S} {labels : List L}
    (hinit : inv state)
    (hstep : ∀ before label rest s s', labels = before ++ label :: rest →
      execute step state before = some s → inv s → step s label = some s' → inv s')
    (h : execute step state labels = some final) : inv final := by
  induction labels using List.reverseRecOn generalizing final with
  | nil => exact Option.some.inj h ▸ hinit
  | append_singleton before label ih =>
    obtain ⟨middle, hbefore, hlast⟩ := (execute_concat step).mp h
    refine hstep before label [] middle final rfl hbefore (ih ?_ hbefore) hlast
    intro earlier other rest s s' hsplit hrun hinv hnext
    exact hstep earlier other (rest ++ [label]) s s' (by rw [hsplit, List.append_assoc]; rfl) hrun hinv hnext

/-- Every way to go on reaches a goal, and there is always a way to go on before. -/
inductive Inevitable (goal : S → Prop) : S → Prop
  | now {state : S} (hgoal : goal state) : Inevitable goal state
  | later {state : S} (hmoves : ∃ label next, step state label = some next)
      (hnext : ∀ label next, step state label = some next → Inevitable goal next) : Inevitable goal state

/-- A step that does not depend on its label. -/
theorem Inevitable.of_step [Nonempty L] {goal : S → Prop} {state next : S}
    (hstep : ∀ label, step state label = some next) (h : Inevitable step goal next) :
    Inevitable step goal state := by
  obtain ⟨label⟩ := ‹Nonempty L›
  refine .later ⟨label, next, hstep label⟩ ?_
  intro other after hafter
  rw [hstep other] at hafter
  exact Option.some.inj hafter ▸ h

theorem Inevitable.trans {first second : S → Prop} {state : S} (h : Inevitable step first state)
    (hsecond : ∀ middle, first middle → Inevitable step second middle) : Inevitable step second state := by
  induction h with
  | now hgoal => exact hsecond _ hgoal
  | later hmoves _ ih => exact .later hmoves ih

/-- What is inevitable comes after finitely many steps, if there is no step
    after it. -/
theorem Inevitable.acc {goal : S → Prop} {state : S} (hlast : ∀ s label, goal s → step s label = none)
    (h : Inevitable step goal state) : Acc (fun next s => ∃ label, step s label = some next) state := by
  induction h with
  | now hgoal =>
    refine ⟨_, ?_⟩
    rintro next ⟨label, hstep⟩
    rw [hlast _ label hgoal] at hstep
    cases hstep
  | later _ _ ih => exact ⟨_, fun next ⟨label, hstep⟩ => ih label next hstep⟩

theorem not_acc_of_cycle {r : S → S → Prop} {state : S} (hcycle : Relation.TransGen r state state) :
    ¬ Acc r state := by
  intro hacc
  induction hacc.transGen with
  | intro state _ ih => exact ih state hcycle hcycle hacc

theorem transGen_of_execute {state final : S} {label : L} {labels : List L}
    (h : execute step state (label :: labels) = some final) :
    Relation.TransGen (fun next s => ∃ label, step s label = some next) final state := by
  induction labels generalizing state label with
  | nil =>
    rw [execute_cons, Option.bind_eq_some_iff] at h
    obtain ⟨next, hstep, hfinal⟩ := h
    cases hfinal
    exact .single ⟨label, hstep⟩
  | cons other rest ih =>
    rw [execute_cons, Option.bind_eq_some_iff] at h
    obtain ⟨next, hstep, hrest⟩ := h
    exact (ih hrest).tail ⟨label, hstep⟩

end Execution

section Counting

variable {A : Type*} (p : A → Bool)

/-- Replacing one element of a list changes a count by what that element
    contributes. -/
theorem countP_set {items : List A} {index : Nat} (hindex : index < items.length) (item : A) :
    (items.set index item).countP p + (if p items[index] then 1 else 0) =
      items.countP p + (if p item then 1 else 0) := by
  induction items generalizing index with
  | nil => exact absurd hindex (Nat.not_lt_zero _)
  | cons first rest ih =>
    cases index with
    | zero =>
      simp only [List.set_cons_zero, List.countP_cons, List.getElem_cons_zero]
      omega
    | succ index =>
      have hrest := ih (Nat.lt_of_succ_lt_succ hindex)
      simp only [List.set_cons_succ, List.countP_cons, List.getElem_cons_succ]
      omega

end Counting

/-- What is in a list after one element was replaced. -/
theorem getElem?_set_cases {A : Type*} {items : List A} {index position : Nat} {first item found : A}
    (hfirst : items[index]? = some first) (hfound : (items.set index item)[position]? = some found) :
    (index = position ∧ item = found) ∨ items[position]? = some found := by
  by_cases hindex : index = position
  · subst hindex
    rw [List.getElem?_set_self (List.getElem?_eq_some_iff.mp hfirst).1] at hfound
    exact Or.inl ⟨rfl, Option.some.inj hfound⟩
  · rw [List.getElem?_set_ne hindex] at hfound
    exact Or.inr hfound

end collections

import Mathlib.Data.List.Induction
import Mathlib.Data.List.Forall2

namespace collections

section Outputs

variable {S E R : Type*} (step : S → E → R × S)

/-- What a machine answers to a sequence of events. -/
def outputs (state : S) : List E → List R
  | [] => []
  | event :: rest => (step state event).1 :: outputs (step state event).2 rest

/-- The state a sequence of events leads to. -/
def settle (state : S) (events : List E) : S := events.foldl (fun state event => (step state event).2) state

@[simp] theorem settle_cons (state : S) (event : E) (rest : List E) :
    settle step state (event :: rest) = settle step (step state event).2 rest := rfl

@[simp] theorem outputs_length (state : S) (events : List E) :
    (outputs step state events).length = events.length := by
  induction events generalizing state with
  | nil => rfl
  | cons event rest ih => simp [outputs, ih]

theorem outputs_append (state : S) (first second : List E) :
    outputs step state (first ++ second) =
      outputs step state first ++ outputs step (settle step state first) second := by
  induction first generalizing state with
  | nil => rfl
  | cons event rest ih => simp only [List.cons_append, outputs, ih, settle_cons]

theorem settle_append (state : S) (first second : List E) :
    settle step state (first ++ second) = settle step (settle step state first) second := by
  simp [settle, List.foldl_append]

theorem outputs_concat (state : S) (before : List E) (event : E) :
    outputs step state (before ++ [event]) =
      outputs step state before ++ [(step (settle step state before) event).1] := by
  rw [outputs_append]
  rfl

theorem settle_concat (state : S) (before : List E) (event : E) :
    settle step state (before ++ [event]) = (step (settle step state before) event).2 := by
  rw [settle_append]
  rfl

/-- A machine that answers each event with the event itself, too. -/
theorem outputs_paired (state : S) (events : List E) :
    outputs (fun state event => ((event, (step state event).1), (step state event).2)) state events =
      events.zip (outputs step state events) := by
  induction events generalizing state with
  | nil => rfl
  | cons event rest ih => rw [outputs, ih, outputs, List.zip_cons_cons]

/-- Machines that move alike settle alike, whatever they answer. -/
theorem settle_congr {Q : Type*} {step' : S → E → Q × S}
    (h : ∀ state event, (step state event).2 = (step' state event).2) (state : S) (events : List E) :
    settle step state events = settle step' state events := by
  induction events generalizing state with
  | nil => rfl
  | cons event rest ih => rw [settle_cons, settle_cons, h, ih]

/-- The answer to the event at a position. -/
theorem outputs_getElem? (state : S) (before : List E) (event : E) (rest : List E) :
    (outputs step state (before ++ event :: rest))[before.length]? =
      some (step (settle step state before) event).1 := by
  rw [outputs_append, List.getElem?_append_right (by simp), outputs_length, Nat.sub_self]
  rfl

/-- The last event of a run that has a property together with its answer. -/
def last_event (p : E → R → Bool) (state : S) (events : List E) : Option E :=
  ((events.zip (outputs step state events)).filter (fun answered => p answered.1 answered.2)).getLast?.map Prod.fst

theorem last_event_concat (p : E → R → Bool) (state : S) (before : List E) (event : E) :
    last_event step p state (before ++ [event]) =
      if p event (step (settle step state before) event).1 then some event else last_event step p state before := by
  unfold last_event
  rw [outputs_concat, List.zip_append (by simp), List.filter_append, List.zip_cons_cons, List.zip_nil_left]
  by_cases hevent : p event (step (settle step state before) event).1 = true
  · simp [hevent]
  · simp [hevent]

end Outputs

section Simulation

variable {S T E R Q : Type*} {step : S → E → R × S} {step' : T → E → Q × T}

/-- The simulation rule. A relation between two machines, which may depend on
    the events so far and is kept by every event with related answers, relates
    them along the whole run. -/
theorem simulation {events : List E} (related : R → Q → Prop) (rel : List E → S → T → Prop) {state : S}
    {state' : T} (hinit : rel [] state state')
    (hstep : ∀ before event rest, events = before ++ event :: rest → ∀ s t, rel before s t →
      related (step s event).1 (step' t event).1 ∧
        rel (before ++ [event]) (step s event).2 (step' t event).2) :
    List.Forall₂ related (outputs step state events) (outputs step' state' events) ∧
      rel events (settle step state events) (settle step' state' events) := by
  suffices hsuffix : ∀ suffix before s t, events = before ++ suffix → rel before s t →
      List.Forall₂ related (outputs step s suffix) (outputs step' t suffix) ∧
        rel events (settle step s suffix) (settle step' t suffix) from
    hsuffix events [] state state' rfl hinit
  intro suffix
  induction suffix with
  | nil =>
    intro before s t hevents hrel
    rw [List.append_nil] at hevents
    exact ⟨List.Forall₂.nil, hevents ▸ hrel⟩
  | cons event rest ih =>
    intro before s t hevents hrel
    obtain ⟨hrelated, hnext⟩ := hstep before event rest hevents s t hrel
    obtain ⟨hrest, hlast⟩ := ih (before ++ [event]) _ _ (by rw [hevents, List.append_assoc]; rfl) hnext
    exact ⟨List.Forall₂.cons hrelated hrest, hlast⟩

end Simulation

/-- What is asked of every event of a sequence, given those before it. -/
theorem forall_split_cons {E : Type*} {first : E} {events : List E} {p : List E → E → Prop} :
    (∀ before event rest, first :: events = before ++ event :: rest → p before event) ↔
      p [] first ∧ ∀ before event rest, events = before ++ event :: rest → p (first :: before) event := by
  constructor
  · intro h
    exact ⟨h [] first events rfl,
      fun before event rest hsplit => h (first :: before) event rest (by rw [hsplit]; rfl)⟩
  · rintro ⟨hfirst, hrest⟩ before event rest hsplit
    cases before with
    | nil =>
      cases hsplit
      exact hfirst
    | cons other before =>
      cases hsplit
      exact hrest before event rest rfl

end collections

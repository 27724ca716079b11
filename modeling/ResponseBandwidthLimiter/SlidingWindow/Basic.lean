import Mathlib.Algebra.Order.Group.Defs
import Mathlib.Algebra.Order.Group.Unbundled.Basic
import Mathlib.Data.List.Pairwise
import Mathlib.Data.List.Basic
import Mathlib.Order.Lattice

namespace sliding_window

variable {T : Type*} [LinearOrder T]

/-- Drop the leading times at or before a threshold. -/
def prune (threshold : T) (history : List T) : List T :=
  history.dropWhile (fun time => time ≤ threshold)

/-- Whether one more time may be stored next to `held` others; a missing
    capacity admits any number. -/
def has_room (capacity : Option Nat) (held : Nat) : Bool :=
  match capacity with
  | none => true
  | some limit => held < limit

/-- Times in the order they were stored, oldest first. -/
def Sorted (history : List T) : Prop := history.Pairwise (· ≤ ·)

theorem prune_sublist (threshold : T) (history : List T) :
    (prune threshold history).Sublist history :=
  List.dropWhile_sublist _

@[simp] theorem prune_nil (threshold : T) : prune threshold [] = [] := rfl

/-- On a sorted history, pruning the front removes every time at or before the
    threshold. -/
theorem prune_eq_filter {history : List T} (hsorted : Sorted history) (threshold : T) :
    prune threshold history = history.filter (fun time => threshold < time) := by
  induction history with
  | nil => rfl
  | cons first rest ih =>
    obtain ⟨hfirst, hrest⟩ := List.pairwise_cons.mp hsorted
    by_cases hold : first ≤ threshold
    · simp only [prune, List.dropWhile_cons, hold, decide_true, if_true, List.filter_cons,
        not_lt_of_ge hold, decide_false, Bool.false_eq_true, if_false]
      exact ih hrest
    · have hlt : threshold < first := lt_of_not_ge hold
      have hall : rest.filter (fun time => threshold < time) = rest := by
        rw [List.filter_eq_self]
        intro time htime
        simpa using lt_of_lt_of_le hlt (hfirst time htime)
      simp [prune, hold, hlt, hall]

theorem prune_sorted {history : List T} (hsorted : Sorted history) (threshold : T) :
    Sorted (prune threshold history) :=
  hsorted.sublist (prune_sublist threshold history)

theorem mem_prune_iff {history : List T} (hsorted : Sorted history) {threshold time : T} :
    time ∈ prune threshold history ↔ time ∈ history ∧ threshold < time := by
  rw [prune_eq_filter hsorted, List.mem_filter, decide_eq_true_eq]

/-- A later pruning at the higher of two thresholds subsumes the earlier one. -/
theorem prune_prune_of_le (history : List T) {first second : T} (hle : first ≤ second) :
    prune second (prune first history) = prune second history := by
  induction history with
  | nil => rfl
  | cons oldest rest ih =>
    by_cases hold : oldest ≤ first
    · have hfirst : prune first (oldest :: rest) = prune first rest := by simp [prune, hold]
      have hsecond : prune second (oldest :: rest) = prune second rest := by simp [prune, hold.trans hle]
      rw [hfirst, hsecond, ih]
    · have hfirst : prune first (oldest :: rest) = oldest :: rest := by simp [prune, hold]
      rw [hfirst]

theorem prune_eq_nil_of_le {history : List T} {threshold : T}
    (hold : ∀ time ∈ history, time ≤ threshold) : prune threshold history = [] := by
  induction history with
  | nil => rfl
  | cons first rest ih =>
    have hfirst : first ≤ threshold := hold first List.mem_cons_self
    simp only [prune, List.dropWhile_cons, hfirst, decide_true, if_true]
    exact ih (fun time htime => hold time (List.mem_cons_of_mem _ htime))

/-- Once the hit at a position has left the window, so have all before it. -/
theorem prune_length_add_le {history : List T} (hsorted : Sorted history) {threshold : T} {index : Nat}
    (hindex : index < history.length) (hold : history[index] ≤ threshold) :
    (prune threshold history).length + (index + 1) ≤ history.length := by
  induction history generalizing index with
  | nil => exact absurd hindex (Nat.not_lt_zero _)
  | cons first rest ih =>
    obtain ⟨hfirst, hrest⟩ := List.pairwise_cons.mp hsorted
    have hdropped : first ≤ threshold := by
      cases index with
      | zero => exact hold
      | succ index => exact (hfirst _ (List.getElem_mem _)).trans hold
    have hprune : prune threshold (first :: rest) = prune threshold rest := by
      simp [prune, hdropped]
    rw [hprune, List.length_cons]
    cases index with
    | zero =>
      have hlength := (prune_sublist threshold rest).length_le
      omega
    | succ index =>
      have hlength := ih hrest (Nat.lt_of_succ_lt_succ hindex) hold
      omega

/-- While the hit at a position is in the window, so are all after it. -/
theorem length_le_prune_add {history : List T} (hsorted : Sorted history) {threshold : T} {index : Nat}
    (hindex : index < history.length) (hnew : threshold < history[index]) :
    history.length ≤ (prune threshold history).length + index := by
  induction history generalizing index with
  | nil => exact absurd hindex (Nat.not_lt_zero _)
  | cons first rest ih =>
    by_cases hfirst : first ≤ threshold
    · have hprune : prune threshold (first :: rest) = prune threshold rest := by simp [prune, hfirst]
      rw [hprune, List.length_cons]
      cases index with
      | zero => exact absurd hnew (not_lt.mpr hfirst)
      | succ index =>
        have hlength := ih (List.pairwise_cons.mp hsorted).2 (Nat.lt_of_succ_lt_succ hindex) hnew
        omega
    · have hprune : prune threshold (first :: rest) = first :: rest := by simp [prune, hfirst]
      rw [hprune]
      omega

/-- Pruning a history and adding the latest time keeps it sorted and bounded. -/
theorem prune_append_sorted {history added : List T} {now : T} (hsorted : Sorted history)
    (hbound : ∀ time ∈ history, time ≤ now) (threshold : T) (hadded : added = [] ∨ added = [now]) :
    Sorted (prune threshold history ++ added) ∧ ∀ time ∈ prune threshold history ++ added, time ≤ now := by
  have hkept : ∀ time ∈ prune threshold history, time ≤ now :=
    fun time htime => hbound time ((prune_sublist _ _).subset htime)
  rcases hadded with rfl | rfl
  · rw [List.append_nil]
    exact ⟨prune_sorted hsorted threshold, hkept⟩
  · refine ⟨List.pairwise_append.mpr ⟨prune_sorted hsorted threshold, by simp, ?_⟩, ?_⟩
    · intro time htime last hlast
      exact List.mem_singleton.mp hlast ▸ hkept time htime
    · intro time htime
      rcases List.mem_append.mp htime with htime | htime
      · exact hkept time htime
      · exact (List.mem_singleton.mp htime).le

section Record

variable [AddCommGroup T]

/-- Count one hit: forget the hits that left the window ending now, then store
    this one if there is room. -/
def record (window : T) (capacity : Option Nat) (history : List T) (now : T) : List T :=
  let kept := prune (now - window) history
  if has_room capacity kept.length then kept ++ [now] else kept

/-- The history after a sequence of hits. -/
def replay (window : T) (capacity : Option Nat) (history : List T) (times : List T) : List T :=
  times.foldl (record window capacity) history

@[simp] theorem replay_nil (window : T) (capacity : Option Nat) (history : List T) :
    replay window capacity history [] = history := rfl

@[simp] theorem replay_cons (window : T) (capacity : Option Nat) (history : List T) (now : T)
    (rest : List T) :
    replay window capacity history (now :: rest) =
      replay window capacity (record window capacity history now) rest := rfl

theorem replay_append (window : T) (capacity : Option Nat) (history first second : List T) :
    replay window capacity history (first ++ second) =
      replay window capacity (replay window capacity history first) second := by
  simp [replay, List.foldl_append]

/-- A hit depends on a history only through what its window holds. -/
theorem record_congr {window : T} {first second : List T} {now : T}
    (hsame : prune (now - window) first = prune (now - window) second) (capacity : Option Nat) :
    record window capacity first now = record window capacity second now := by
  simp only [record, hsame]

theorem record_of_room {window : T} {capacity : Option Nat} {history : List T} {now : T}
    (hroom : has_room capacity (prune (now - window) history).length = true) :
    record window capacity history now = prune (now - window) history ++ [now] := by
  simp [record, hroom]

theorem record_of_full {window : T} {capacity : Option Nat} {history : List T} {now : T}
    (hfull : has_room capacity (prune (now - window) history).length = false) :
    record window capacity history now = prune (now - window) history := by
  simp [record, hfull]

theorem record_sublist (window : T) (capacity : Option Nat) (history : List T) (now : T) :
    (record window capacity history now).Sublist (prune (now - window) history ++ [now]) := by
  cases hroom : has_room capacity (prune (now - window) history).length with
  | true => rw [record_of_room hroom]
  | false =>
    rw [record_of_full hroom]
    exact List.sublist_append_left _ _

/-- Nothing is in the record but earlier times and the new one. -/
theorem mem_of_mem_record {window : T} {capacity : Option Nat} {history : List T} {now time : T}
    (hmem : time ∈ record window capacity history now) : time ∈ history ∨ time = now := by
  rcases List.mem_append.mp ((record_sublist _ _ _ _).subset hmem) with hbefore | hlast
  · exact Or.inl ((prune_sublist _ _).subset hbefore)
  · exact Or.inr (List.mem_singleton.mp hlast)

/-- A hit adds itself or nothing to what the window still holds. -/
theorem record_eq_append (window : T) (capacity : Option Nat) (history : List T) (now : T) :
    ∃ added, record window capacity history now = prune (now - window) history ++ added ∧
      (added = [] ∨ added = [now]) := by
  cases hroom : has_room capacity (prune (now - window) history).length with
  | true => exact ⟨[now], record_of_room hroom, Or.inr rfl⟩
  | false => exact ⟨[], by rw [record_of_full hroom, List.append_nil], Or.inl rfl⟩

/-- Recording at a time no earlier than the stored ones keeps them sorted and
    bounded by the clock. -/
theorem record_sorted (window : T) (capacity : Option Nat) {history : List T} {now : T}
    (hsorted : Sorted history) (hbound : ∀ time ∈ history, time ≤ now) :
    Sorted (record window capacity history now) ∧
      ∀ time ∈ record window capacity history now, time ≤ now := by
  obtain ⟨added, hrecord, hadded⟩ := record_eq_append window capacity history now
  rw [hrecord]
  exact prune_append_sorted hsorted hbound _ hadded

theorem lt_of_mem_record [IsOrderedAddMonoid T] {window : T} (hwindow : 0 < window) {capacity : Option Nat}
    {history : List T} {now time : T} (hsorted : Sorted history)
    (htime : time ∈ record window capacity history now) :
    now - window < time := by
  rcases List.mem_append.mp ((record_sublist window capacity history now).subset htime) with hkept | hnew
  · exact ((mem_prune_iff hsorted).mp hkept).2
  · rw [List.mem_singleton.mp hnew]
    exact sub_lt_self now hwindow

/-- A nonempty capacity never leaves the history empty after a hit. -/
theorem record_ne_nil {window : T} {capacity : Option Nat} {history : List T} {now : T}
    (hcapacity : ∀ limit ∈ capacity, 0 < limit) : record window capacity history now ≠ [] := by
  cases hroom : has_room capacity (prune (now - window) history).length with
  | true => simp [record_of_room hroom]
  | false =>
    rw [record_of_full hroom]
    intro hnil
    rw [hnil] at hroom
    cases capacity with
    | none => simp [has_room] at hroom
    | some limit =>
      have hpos := hcapacity limit rfl
      simp only [has_room, List.length_nil, decide_eq_false_iff_not] at hroom
      exact hroom hpos

/-- A hit adds at most itself to what the window still holds. -/
theorem record_length_le_succ (window : T) (capacity : Option Nat) (history : List T) (now : T) :
    (record window capacity history now).length ≤ (prune (now - window) history).length + 1 := by
  simpa using (record_sublist window capacity history now).length_le

theorem record_length_le {window : T} {limit : Nat} {history : List T} {now : T}
    (hlength : history.length ≤ limit) :
    (record window (some limit) history now).length ≤ limit := by
  have hkept := (prune_sublist (now - window) history).length_le
  cases hroom : has_room (some limit) (prune (now - window) history).length with
  | true =>
    rw [record_of_room hroom]
    simp only [has_room, decide_eq_true_eq] at hroom
    simp only [List.length_append, List.length_singleton]
    omega
  | false =>
    rw [record_of_full hroom]
    exact le_trans hkept hlength

/-- Under a cap of one more than a limit, a hit is within the limit exactly when
    fewer hits than the limit were held. -/
theorem record_length_le_iff {window : T} {limit : Nat} {history : List T} {now : T} :
    (record window (some (limit + 1)) history now).length ≤ limit ↔
      (prune (now - window) history).length < limit := by
  cases hroom : has_room (some (limit + 1)) (prune (now - window) history).length with
  | true =>
    rw [record_of_room hroom, List.length_append, List.length_singleton]
    omega
  | false =>
    rw [record_of_full hroom]
    simp only [has_room, decide_eq_false_iff_not] at hroom
    omega

/-- From a full history on, the next hit is within the limit exactly when the
    second oldest one has left the window. -/
theorem record_full_length_le_iff {window : T} {limit : Nat} {full history : List T} {now hit : T}
    (hsorted : Sorted full) (hlength : full.length = limit + 1) (hhit : full[1]? = some hit)
    (hsame : prune (now - window) history = prune (now - window) full) :
    (record window (some (limit + 1)) history now).length ≤ limit ↔ hit ≤ now - window := by
  obtain ⟨hindex, rfl⟩ := List.getElem?_eq_some_iff.mp hhit
  rw [record_length_le_iff, hsame]
  constructor
  · intro hfew
    by_contra hnew
    have hkept := length_le_prune_add hsorted hindex (not_le.mp hnew)
    omega
  · intro hold
    have hdropped := prune_length_add_le hsorted hindex hold
    omega

end Record

end sliding_window

import ResponseBandwidthLimiter.SlidingWindow.Admission
import Mathlib.Algebra.BigOperators.Group.List.Lemmas
import Mathlib.Algebra.Order.BigOperators.Group.List
import Mathlib.Algebra.Order.Ring.Nat

namespace sliding_window

section Covering

variable {T : Type*} [LinearOrder T] [AddCommGroup T] [IsOrderedAddMonoid T] {window : T} {count : Nat}
  {now later : T} {history past : List T}

omit [IsOrderedAddMonoid T] in
/-- Of the admitted hits any may be left out, as those whose answers were lost. -/
theorem Covers.of_sublist (h : Covers window count now history past) {fewer : List T}
    (hfewer : fewer.Sublist past) : Covers window count now history fewer where
  sorted := h.sorted
  history_le := h.history_le
  past_le time htime := h.past_le time (hfewer.subset htime)
  kept := (hfewer.filter _).trans h.kept
  bounded t := (hfewer.filter _).length_le.trans (h.bounded t)

/-- Until its next hit a store does not have to prune anything. -/
theorem Covers.wait (h : Covers window count now history past) (hle : now ≤ later) :
    Covers window count later history past where
  sorted := h.sorted
  history_le time htime := (h.history_le time htime).trans hle
  past_le time htime := (h.past_le time htime).trans hle
  kept := (h.advance hle).kept.trans (prune_sublist _ _)
  bounded := h.bounded

/-- Once all stored hits have left the window, the store may lose them. -/
theorem Covers.forget (h : Covers window count now history past) (hle : now ≤ later)
    (hold : ∀ time ∈ history, time ≤ later - window) : Covers window count later [] past := by
  have hadvanced := h.advance hle
  rwa [prune_eq_nil_of_le hold] at hadvanced

/-- The step lemma of a store that is shared: a hit keeps the link, whoever
    makes it. -/
theorem Covers.record (h : Covers window count now history past) (hle : now ≤ later) :
    Covers window count later (sliding_window.record window (some (count + 1)) history later)
      (if (sliding_window.record window (some (count + 1)) history later).length ≤ count
        then past ++ [later] else past) := by
  have hhit := (h.advance hle).hit (prune_prune_of_le _ (le_refl _))
  rwa [record_prune_self] at hhit

end Covering

section Counting

variable {A B : Type*}

/-- Elements that are of one of two kinds are at most as many as both kinds. -/
theorem countP_le_add {p q r : A → Bool} {items : List A}
    (hkinds : ∀ item ∈ items, p item = true → q item = true ∨ r item = true) :
    items.countP p ≤ items.countP q + items.countP r := by
  induction items with
  | nil => simp
  | cons item rest ih =>
    have hrest := ih (fun other hother => hkinds other (List.mem_cons_of_mem item hother))
    have hitem := hkinds item List.mem_cons_self
    simp only [List.countP_cons]
    cases hp : p item with
    | false =>
      simp only [Bool.false_eq_true, if_false]
      omega
    | true =>
      rcases hitem hp with hq | hr
      · simp only [hq, if_true]
        omega
      · simp only [hr, if_true]
        omega

variable [DecidableEq B]

/-- Where every label counts at most so many elements, all labels together count
    at most as many for each label that occurs. -/
theorem countP_le_of_labels (p : A → Bool) (label : A → B) {bound : Nat} {items : List A}
    (hbound : ∀ b, items.countP (fun item => p item && label item = b) ≤ bound) :
    items.countP p ≤ ((items.filter p).map label).dedup.length * bound := by
  have hlength : items.countP p = ((items.filter p).map label).length := by
    rw [List.length_map, List.countP_eq_length_filter]
  rw [hlength, ← List.sum_map_count_dedup_eq_length]
  have hsum := List.sum_le_card_nsmul (((items.filter p).map label).dedup.map
    (fun b => ((items.filter p).map label).count b)) bound ?_
  · simpa using hsum
  · intro found hfound
    obtain ⟨b, -, rfl⟩ := List.mem_map.mp hfound
    refine le_trans (le_of_eq ?_) (hbound b)
    rw [List.count, List.countP_map, List.countP_filter]
    apply List.countP_congr
    intro item _
    simp [and_comm]

end Counting

end sliding_window

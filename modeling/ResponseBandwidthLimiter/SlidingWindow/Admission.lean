import ResponseBandwidthLimiter.SlidingWindow.Basic
import Mathlib.Algebra.Order.Group.Basic
import Mathlib.Data.List.Induction

namespace sliding_window

variable {T : Type*} [LinearOrder T] [AddCommGroup T]

/-- The number of stored hits reported after each hit, paired with its time. -/
def hit_counts (window : T) (capacity : Option Nat) (history : List T) : List T → List (T × Nat)
  | [] => []
  | now :: rest =>
    let stored := record window capacity history now
    (now, stored.length) :: hit_counts window capacity stored rest

/-- The times of the hits that reported at most `count`. -/
def admitted (count : Nat) (outcomes : List (T × Nat)) : List T :=
  (outcomes.filter (fun outcome => outcome.2 ≤ count)).map Prod.fst

/-- The part of a list of times that lies in the window ending at `now`. -/
def within (window now : T) (times : List T) : List T :=
  times.filter (fun time => now - window < time ∧ time ≤ now)

variable [IsOrderedAddMonoid T]

/-- What links a stored history to the hits admitted so far: the history is in
    time order, keeps every admitted hit still inside the window, and no window
    holds more than `count` admitted hits. -/
structure Covers (window : T) (count : Nat) (now : T) (history past : List T) : Prop where
  sorted : Sorted history
  history_le : ∀ time ∈ history, time ≤ now
  past_le : ∀ time ∈ past, time ≤ now
  kept : (past.filter (fun time => now - window < time)).Sublist history
  bounded : ∀ t, (within window t past).length ≤ count

omit [IsOrderedAddMonoid T] in
theorem Covers.nil (window : T) (count : Nat) (now : T) : Covers window count now [] [] where
  sorted := List.Pairwise.nil
  history_le := by simp
  past_le := by simp
  kept := by simp
  bounded := by simp [within]

/-- Moving the clock forward keeps the link. -/
theorem Covers.advance {window : T} {count : Nat} {now later : T} {history past : List T}
    (h : Covers window count now history past) (hle : now ≤ later) :
    Covers window count later (prune (later - window) history) past where
  sorted := prune_sorted h.sorted _
  history_le time htime := (h.history_le time ((prune_sublist _ _).subset htime)).trans hle
  past_le time htime := (h.past_le time htime).trans hle
  bounded := h.bounded
  kept := by
    have hlower : now - window ≤ later - window := sub_le_sub_right hle window
    have hsub := h.kept.filter (fun time => later - window < time)
    rw [List.filter_filter, ← prune_eq_filter h.sorted] at hsub
    have hsame : past.filter (fun time => decide (later - window < time) && decide (now - window < time)) =
        past.filter (fun time => later - window < time) := by
      apply List.filter_congr
      intro time _
      by_cases hlt : later - window < time
      · simp [hlt, lt_of_le_of_lt hlower hlt]
      · simp [hlt]
    rwa [hsame] at hsub

/-- A stored hit that is admitted keeps the link. -/
theorem Covers.append {window : T} {count : Nat} {now : T} {history past : List T}
    (h : Covers window count now history past) (hadmitted : (history ++ [now]).length ≤ count) :
    Covers window count now (history ++ [now]) (past ++ [now]) := by
  have hkept : ((past ++ [now]).filter (fun time => now - window < time)).Sublist (history ++ [now]) := by
    rw [List.filter_append]
    exact h.kept.append List.filter_sublist
  refine ⟨?_, ?_, ?_, hkept, ?_⟩
  · exact List.pairwise_append.mpr ⟨h.sorted, List.pairwise_singleton _ _, by simpa using h.history_le⟩
  · exact List.forall_mem_append.mpr ⟨h.history_le, by simp⟩
  · exact List.forall_mem_append.mpr ⟨h.past_le, by simp⟩
  · intro t
    -- A window that contains this hit reaches back no further than the one
    -- ending now, whose admitted hits are all stored.
    by_cases hin : t - window < now ∧ now ≤ t
    · have hlower : now - window ≤ t - window := sub_le_sub_right hin.2 window
      have hsub : (within window t (past ++ [now])).Sublist
          ((past ++ [now]).filter (fun time => now - window < time)) := by
        unfold within
        apply List.monotone_filter_right
        intro time htime
        simp only [decide_eq_true_eq] at htime ⊢
        exact lt_of_le_of_lt hlower htime.1
      exact (hsub.trans hkept).length_le.trans hadmitted
    · have hsame : within window t (past ++ [now]) = within window t past := by
        simp only [within, List.filter_append, List.filter_cons, hin, decide_false,
          Bool.false_eq_true, if_false, List.filter_nil, List.append_nil]
      rw [hsame]
      exact h.bounded t

/-- A hit that finds room for one more than `count` hits keeps the link, both
    when it is admitted and when it is only stored or dropped. -/
theorem Covers.hit {window : T} {count : Nat} {now : T} {history past : List T}
    (h : Covers window count now history past) (hpruned : prune (now - window) history = history) :
    Covers window count now (record window (some (count + 1)) history now)
      (if (record window (some (count + 1)) history now).length ≤ count
        then past ++ [now] else past) := by
  cases hroom : has_room (some (count + 1)) (prune (now - window) history).length with
  | false =>
    have hfull := record_of_full hroom
    rw [hpruned] at hfull hroom
    simp only [has_room, decide_eq_false_iff_not, not_lt] at hroom
    rw [hfull, if_neg (by omega)]
    exact h
  | true =>
    have hsorted := record_sorted window (some (count + 1)) h.sorted h.history_le
    have hstored := record_of_room hroom
    rw [hpruned] at hstored
    rw [hstored] at hsorted ⊢
    split_ifs with hadmitted
    · exact h.append hadmitted
    · exact ⟨hsorted.1, hsorted.2, h.past_le, h.kept.trans (List.sublist_append_left _ _), h.bounded⟩

omit [IsOrderedAddMonoid T] in
theorem record_prune_self (window : T) (capacity : Option Nat) (history : List T) (now : T) :
    record window capacity (prune (now - window) history) now = record window capacity history now :=
  record_congr (prune_prune_of_le history (le_refl _)) capacity

/-- The run lemma behind the limit: from a linked state, every window of every
    later point of the run still holds at most `count` admitted hits. -/
theorem Covers.admitted_le {window : T} {count : Nat} {now : T} {history past : List T}
    (h : Covers window count now history past) {times : List T} (hmono : (now :: times).Pairwise (· ≤ ·))
    (t : T) :
    (within window t
      (past ++ admitted count (hit_counts window (some (count + 1)) history times))).length ≤ count := by
  induction times generalizing now history past with
  | nil =>
    simp only [hit_counts, admitted, List.filter_nil, List.map_nil, List.append_nil]
    exact h.bounded t
  | cons next rest ih =>
    obtain ⟨hnow, hrest⟩ := List.pairwise_cons.mp hmono
    have hadvanced := h.advance (hnow next List.mem_cons_self)
    have hstep := hadvanced.hit (prune_prune_of_le _ (le_refl _))
    rw [record_prune_self] at hstep
    have hrun := ih hstep hrest
    simp only [hit_counts, admitted, List.filter_cons] at hrun ⊢
    by_cases hadmitted : (record window (some (count + 1)) history next).length ≤ count
    · simp only [hadmitted, decide_true, if_true, List.map_cons] at hrun ⊢
      rwa [List.append_assoc] at hrun
    · simp only [hadmitted, decide_false, if_false, Bool.false_eq_true] at hrun ⊢
      exact hrun

/-- At most `count` hits are admitted in any window, when a history that starts
    empty has room for one more than `count`. -/
theorem admitted_within_le (window : T) (count : Nat) {times : List T} (hmono : Sorted times) (t : T) :
    (within window t (admitted count (hit_counts window (some (count + 1)) [] times))).length ≤ count := by
  cases times with
  | nil => simp [hit_counts, admitted, within]
  | cons first rest =>
    have hcons : (first :: first :: rest).Pairwise (· ≤ ·) := by
      refine List.pairwise_cons.mpr ⟨?_, hmono⟩
      intro time htime
      rcases List.mem_cons.mp htime with rfl | hmem
      · exact le_refl _
      · exact (List.pairwise_cons.mp hmono).1 time hmem
    simpa using (Covers.nil window count first).admitted_le hcons t

omit [IsOrderedAddMonoid T] in
/-- Only hits that happened are stored, in the order they happened. -/
theorem replay_sublist (window : T) (capacity : Option Nat) (times : List T) :
    (replay window capacity [] times).Sublist times := by
  induction times using List.reverseRecOn with
  | nil => exact List.Sublist.refl _
  | append_singleton rest now ih =>
    rw [replay_append, replay_cons, replay_nil]
    refine (record_sublist _ _ _ _).trans (List.Sublist.append ?_ (List.Sublist.refl _))
    exact (prune_sublist _ _).trans ih

omit [IsOrderedAddMonoid T] in
theorem replay_sorted (window : T) (capacity : Option Nat) {times : List T} (hmono : Sorted times) :
    Sorted (replay window capacity [] times) :=
  hmono.sublist (replay_sublist window capacity times)

omit [IsOrderedAddMonoid T] in
theorem replay_length_le {window : T} {limit : Nat} (times : List T) :
    (replay window (some limit) [] times).length ≤ limit := by
  induction times using List.reverseRecOn with
  | nil => exact Nat.zero_le _
  | append_singleton rest now ih =>
    rw [replay_append, replay_cons, replay_nil]
    exact record_length_le ih

/-- The window never holds a hit that has left it. -/
theorem lt_of_mem_record_replay {window : T} (hwindow : 0 < window) {capacity : Option Nat} {times : List T}
    {now : T} (hmono : Sorted times) {time : T}
    (hmem : time ∈ record window capacity (replay window capacity [] times) now) : now - window < time :=
  lt_of_mem_record hwindow (replay_sorted _ _ hmono) hmem

omit [IsOrderedAddMonoid T] in
theorem within_eq_of_le {window now : T} {times : List T} (hle : ∀ time ∈ times, time ≤ now) :
    within window now times = times.filter (fun time => now - window < time) := by
  apply List.filter_congr
  intro time htime
  simp [hle time htime]

/-- The count reported for a hit never exceeds the number of hits of its own
    window, whatever the capacity. -/
theorem record_replay_length_le {window : T} (hwindow : 0 < window) (capacity : Option Nat)
    {times : List T} {now : T} (hmono : Sorted (times ++ [now])) :
    (record window capacity (replay window capacity [] times) now).length ≤
      (within window now (times ++ [now])).length := by
  obtain ⟨htimes, _, hle⟩ := List.pairwise_append.mp hmono
  have hsub : (prune (now - window) (replay window capacity [] times)).Sublist
      (times.filter (fun time => now - window < time)) := by
    rw [prune_eq_filter (replay_sorted _ _ htimes)]
    exact (replay_sublist window capacity times).filter _
  have hbound : ∀ time ∈ times, time ≤ now := fun time htime => hle time htime now (by simp)
  have hsplit : within window now (times ++ [now]) =
      times.filter (fun time => now - window < time) ++ within window now [now] := by
    rw [← within_eq_of_le hbound]
    simp only [within, List.filter_append]
  rw [hsplit, List.length_append]
  have hone : within window now [now] = [now] := by simp [within, hwindow]
  rw [hone]
  have hlen := (record_sublist window capacity (replay window capacity [] times) now).length_le
  simp only [List.length_append, List.length_singleton] at hlen ⊢
  exact hlen.trans (Nat.add_le_add_right hsub.length_le 1)

/-- Without a capacity, pruning at a later time leaves exactly the hits that
    happened inside the window. -/
theorem prune_replay_none {window : T} {times : List T} (hmono : Sorted times) {now : T}
    (hle : ∀ time ∈ times, time ≤ now) :
    prune (now - window) (replay window none [] times) =
      times.filter (fun time => now - window < time) := by
  induction times using List.reverseRecOn generalizing now with
  | nil => rfl
  | append_singleton rest last ih =>
    obtain ⟨hrest, _, hbefore⟩ := List.pairwise_append.mp hmono
    have hbound : ∀ time ∈ rest, time ≤ last := fun time htime => hbefore time htime last (by simp)
    have hlower : last - window ≤ now - window := sub_le_sub_right (hle last (by simp)) window
    rw [prune_eq_filter (replay_sorted _ _ hmono), replay_append, replay_cons, replay_nil,
      record_of_room rfl, ih hrest hbound, List.filter_append, List.filter_append, List.filter_filter]
    congr 1
    apply List.filter_congr
    intro time _
    by_cases hlt : now - window < time
    · simp [hlt, lt_of_le_of_lt hlower hlt]
    · simp [hlt]

/-- Without a capacity a hit reports exactly the hits of its own window. -/
theorem record_replay_none_length {window : T} (hwindow : 0 < window) {times : List T} {now : T}
    (hmono : Sorted (times ++ [now])) :
    (record window none (replay window none [] times) now).length =
      (within window now (times ++ [now])).length := by
  obtain ⟨htimes, _, hle⟩ := List.pairwise_append.mp hmono
  have hbound : ∀ time ∈ times, time ≤ now := fun time htime => hle time htime now (by simp)
  rw [record_of_room rfl, prune_replay_none htimes hbound, ← within_eq_of_le hbound]
  simp [within, List.filter_append, hwindow]

end sliding_window

import ResponseBandwidthLimiter.Backends.Memory.Capacity
import ResponseBandwidthLimiter.Backends.Memory.CounterEviction
import Mathlib.Data.Finset.Order

open collections sliding_window
open response_bandwidth_limiter.base response_bandwidth_limiter.models

namespace response_bandwidth_limiter.memory

namespace InMemoryStorage

variable {V : Type} {self : InMemoryStorage V}

section Capacities

/-- The capacities that the storage was built with. -/
def capacities (self : InMemoryStorage V) : ℕ+ × ℕ+ := (self.max_keys, self.max_counters)

theorem stable_capacities (self : InMemoryStorage V) :
    Stable (fun after : InMemoryStorage V => after.capacities = self.capacities) where
  delete_key _ _ hsame := hsame
  put_value _ _ _ hsame := hsame
  touch_key _ _ _ hsame := hsame
  set_expiry _ _ _ expire hsame := by cases expire <;> exact hsame

variable [PyValue V]

/-- No operation changes the capacities. -/
theorem capacities_access (self : InMemoryStorage V) (call : Access V) :
    (self.access call).2.capacities = self.capacities := by
  obtain ⟨now, operation⟩ := call
  have hstable := self.stable_capacities
  cases operation with
  | get read => exact hstable.operate rfl now rfl
  | set put value expire => exact hstable.operate rfl now rfl
  | incr counted expire => exact hstable.operate rfl now rfl
  | delete deleted => exact hstable.operate rfl now rfl
  | record_hit request_key handler_name rule_index window_seconds max_hits =>
    obtain ⟨request_counters, hcounters⟩ :=
      self.record_hit_counters now request_key handler_name rule_index window_seconds max_hits
    simp only [access, operate, hcounters]
    rfl
  | cleanup_handler_counters handler_name =>
    apply hstable.foldl_delete_key
    rfl
  | cleanup_orphaned_counters active_rules => rfl

theorem capacities_of_run (max_keys max_counters : ℕ+) (accesses : List (Access V)) :
    (settle access (fresh max_keys max_counters) accesses).capacities = (max_keys, max_counters) := by
  induction accesses using List.reverseRecOn with
  | nil => rfl
  | append_singleton earlier last ih =>
    rw [settle_concat, capacities_access]
    exact ih

end Capacities

section TimeOrder

/-- Every stored history is in time order and not ahead of a clock reading. -/
def Ordered (self : InMemoryStorage V) (clock : ℚ) : Prop :=
  ∀ counter_key history, self.request_counters.get? counter_key = some history →
    Sorted history ∧ ∀ hit ∈ history, hit ≤ clock

theorem Ordered.later {clock later : ℚ} (h : self.Ordered clock) (hlater : clock ≤ later) : self.Ordered later := by
  intro counter_key history hstored
  obtain ⟨hsorted, hpast⟩ := h counter_key history hstored
  exact ⟨hsorted, fun hit hhit => (hpast hit hhit).trans hlater⟩

/-- A counter that is not stored has no hits. -/
theorem Ordered.history {clock : ℚ} (h : self.Ordered clock) (counter_key : CounterKey) :
    Sorted (self.history counter_key) ∧ ∀ hit ∈ self.history counter_key, hit ≤ clock := by
  unfold InMemoryStorage.history
  cases hstored : self.request_counters.get? counter_key with
  | none => exact ⟨.nil, nofun⟩
  | some history => exact h counter_key history hstored

variable [PyValue V]

/-- An access at the clock's reading keeps the order: a hit is stored last, and
    everything else only prunes. -/
theorem Ordered.access {call : Access V} (h : self.Ordered call.now) : (self.access call).2.Ordered call.now := by
  intro counter_key after hafter
  cases hcounts : call.counts counter_key with
  | true =>
    obtain ⟨window_seconds, max_hits, -, haccess⟩ := self.access_of_counts hcounts
    rw [haccess, store_history, OrderedDict.get?_set_self] at hafter
    cases hafter
    obtain ⟨hsorted, hpast⟩ := h.history counter_key
    exact record_sorted _ _ hsorted hpast
  | false =>
    obtain ⟨before, hbefore, hchange⟩ := get?_of_not_counts hcounts hafter
    obtain ⟨hsorted, hpast⟩ := h counter_key before hbefore
    rcases hchange with rfl | ⟨-, threshold, rfl⟩
    · exact ⟨hsorted, hpast⟩
    · exact ⟨prune_sorted hsorted threshold, fun hit hhit => hpast hit ((prune_sublist _ _).subset hhit)⟩

/-- The run lemma of the time order. -/
theorem ordered_of_run (max_keys max_counters : ℕ+) {accesses : List (Access V)}
    (hmono : accesses.Pairwise (fun first second => first.now ≤ second.now)) {clock : ℚ}
    (hclock : ∀ call ∈ accesses, call.now ≤ clock) :
    (settle InMemoryStorage.access (fresh max_keys max_counters) accesses).Ordered clock := by
  induction accesses using List.reverseRecOn generalizing clock with
  | nil =>
    intro counter_key history hstored
    cases hstored
  | append_singleton earlier last ih =>
    obtain ⟨hearlier, -, hlast⟩ := List.pairwise_append.mp hmono
    rw [settle_concat]
    have hbefore := ih hearlier (fun call hcall => hlast call hcall last (by simp))
    exact hbefore.access.later (hclock last (by simp))

end TimeOrder

section Representation

/-- What holds of the maps between any two operations, under the capacities that
    the storage was built with. -/
structure Represented (storage : InMemoryStorage V) (max_keys max_counters : ℕ+) : Prop where
  accessed : ∀ key, key ∈ storage.last_access.keys ↔ key ∈ storage.values.keys
  expiring : ∀ key ∈ storage.expires.keys, key ∈ storage.values.keys
  values_le : storage.values.size ≤ max_keys
  counters_le : storage.request_counters.size ≤ max_counters
  hits : ∀ counter_key history, storage.request_counters.get? counter_key = some history →
    history ≠ [] ∧ Sorted history

/-- No branch for an empty history is taken: an eviction finds none to sweep and
    ranks every counter by a hit, and a hit leaves an oldest one to report and,
    once its cap is reached, one at the index of the retry time. -/
structure NeverEmpty (storage : InMemoryStorage V) : Prop where
  swept : storage.request_counters.items.filter (fun entry => entry.2 = []) = []
  ranked : ∀ entry ∈ storage.request_counters.items, ∃ time : ℚ, last_hit entry.2 = time
  reported : ∀ (now : ℚ) (counter_key : CounterKey) (window_seconds : ℤ) (max_hits : Option ℤ),
    validate_max_hits max_hits = .ok () →
      ∃ result after history,
        storage.record_hit now counter_key.1 counter_key.2.1 counter_key.2.2 window_seconds max_hits =
          (.ok result, after) ∧
        after.request_counters.get? counter_key = some history ∧
        (∃ oldest, history.head? = some oldest ∧ result.oldest_timestamp = some oldest) ∧
        ∀ limit, max_hits = some limit → 1 < limit → limit ≤ history.length →
          0 ≤ (history.length : ℤ) - limit + 1 ∧ (history.length : ℤ) - limit + 1 < history.length ∧
            ∃ hit, history[((history.length : ℤ) - limit + 1).toNat]? = some hit ∧
              result.retry_after_timestamp = some hit

/-- The hit that makes room for the next one is a stored one. -/
theorem retry_after_stored {limit : ℤ} {history : List ℚ} (hlimit : 1 < limit) (hreached : limit ≤ history.length) :
    ∃ hit, history[((history.length : ℤ) - limit + 1).toNat]? = some hit ∧
      retry_after_timestamp (some limit) history = some hit := by
  have hindex : ((history.length : ℤ) - limit + 1).toNat < history.length := by omega
  refine ⟨history[((history.length : ℤ) - limit + 1).toNat], List.getElem?_eq_getElem hindex, ?_⟩
  simp only [retry_after_timestamp, dif_pos (And.intro hlimit hreached), List.get_eq_getElem]

theorem last_hit_of_ne_nil {history : List ℚ} (hne : history ≠ []) : ∃ time : ℚ, last_hit history = time := by
  refine ⟨history.getLast hne, ?_⟩
  simp only [last_hit, List.getLast?_eq_getLast_of_ne_nil hne]

theorem Stocked.never_empty (h : self.Stocked) : self.NeverEmpty where
  swept := h.empty_keys_eq_nil
  ranked := by
    rintro ⟨counter_key, history⟩ hmem
    exact last_hit_of_ne_nil (h.ne_nil counter_key history (OrderedDict.get?_eq_some_iff.mpr hmem))
  reported := by
    intro now counter_key window_seconds max_hits hvalid
    have hstored := self.stored_ne_nil now counter_key window_seconds hvalid
    rw [self.record_hit_eq_record now counter_key window_seconds hvalid]
    refine ⟨_, _, _, rfl, OrderedDict.get?_set_self _ _ _, ?_, ?_⟩
    · exact ⟨_, List.head?_eq_some_head hstored, List.head?_eq_some_head hstored⟩
    · rintro limit rfl hlimit hreached
      refine ⟨by omega, by omega, ?_⟩
      exact retry_after_stored hlimit hreached

variable [PyValue V]

/-- Values that crowd each other out, and hits of one counter under two windows
    and two caps. -/
def crowded : List (Access PlainValue) :=
  [⟨0, .set "cart" (.int 1) (some 5)⟩, ⟨1, .record_hit "a" "login" 0 60 (some 2)⟩, ⟨3, .incr "visits" none⟩,
    ⟨4, .record_hit "a" "login" 0 10 (some 3)⟩, ⟨4, .record_hit "b" "login" 0 0 none⟩, ⟨9, .get "cart"⟩]

end Representation

end InMemoryStorage

end response_bandwidth_limiter.memory

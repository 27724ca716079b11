import ResponseBandwidthLimiter.Backends.Memory.Counters
import ResponseBandwidthLimiter.Backends.Memory.Values

open collections sliding_window
open response_bandwidth_limiter.base response_bandwidth_limiter.models response_bandwidth_limiter.memory

namespace response_bandwidth_limiter.base

variable {V : Type}

/-- Whether an access is a hit of a counter. -/
def Access.hits (self : Access V) (counter_key : CounterKey) : Bool :=
  match self.operation with
  | .record_hit request_key handler_name rule_index _ _ => (request_key, handler_name, rule_index) = counter_key
  | _ => false

@[simp] theorem hits_record_hit (counter_key : CounterKey) (window_seconds : ℤ) (now : ℚ) (max_hits : Option ℤ) :
    ({ now, operation := .record_hit counter_key.1 counter_key.2.1 counter_key.2.2 window_seconds max_hits } :
      Access V).hits counter_key = true := by
  simp [Access.hits]

theorem Access.hits_iff {self : Access V} {counter_key : CounterKey} :
    self.hits counter_key = true ↔ ∃ window_seconds max_hits,
      self.operation = .record_hit counter_key.1 counter_key.2.1 counter_key.2.2 window_seconds max_hits := by
  unfold Access.hits
  cases self.operation with
  | record_hit request_key handler_name rule_index window_seconds max_hits =>
    rw [decide_eq_true_iff]
    constructor
    · rintro rfl
      exact ⟨window_seconds, max_hits, rfl⟩
    · rintro ⟨_, _, heq⟩
      cases heq
      rfl
  | _ => simp

end response_bandwidth_limiter.base

namespace response_bandwidth_limiter.memory

namespace InMemoryStorage

variable {V : Type}

theorem get?_of_evict_counters {self : InMemoryStorage V} {counter_key : CounterKey} {stored : List ℚ}
    (hstored : self.evict_counters_if_needed.request_counters.get? counter_key = some stored) :
    self.request_counters.get? counter_key = some stored := by
  have hkept : ∀ {counters : OrderedDict CounterKey (List ℚ)} {stale : List CounterKey},
      (counters.eraseAll stale).get? counter_key = some stored → counters.get? counter_key = some stored := by
    intro counters stale h
    rw [OrderedDict.get?_eraseAll] at h
    split at h
    · cases h
    · exact h
  unfold evict_counters_if_needed at hstored
  simp only at hstored
  split at hstored
  · exact hstored
  · split at hstored
    · exact hkept hstored
    · exact hkept (hkept hstored)

theorem counter_history_fst (self : InMemoryStorage V) (counter_key : CounterKey) :
    (self.counter_history counter_key).1 = self.history counter_key := by
  unfold counter_history history
  cases self.request_counters.get? counter_key <;> rfl

theorem get?_of_counter_history {self : InMemoryStorage V} {counter_key query : CounterKey} {stored : List ℚ}
    (hstored : (self.counter_history counter_key).2.request_counters.get? query = some stored) :
    self.request_counters.get? query = some stored := by
  unfold counter_history at hstored
  split at hstored
  · exact hstored
  · exact get?_of_evict_counters hstored

/-- A hit is recorded in the counter's own history, whatever had to make room for
    it. -/
theorem record_hit_eq_record (self : InMemoryStorage V) (now : ℚ) (counter_key : CounterKey) (window_seconds : ℤ)
    {max_hits : Option ℤ} (hvalid : validate_max_hits max_hits = .ok ()) :
    self.record_hit now counter_key.1 counter_key.2.1 counter_key.2.2 window_seconds max_hits =
      let stored := record (window_seconds : ℚ) (capacity max_hits) (self.history counter_key) now
      (.ok (hit_result now max_hits stored),
        (self.counter_history counter_key).2.store_history counter_key stored) := by
  simp only [record_hit, hvalid, stored_eq_record, counter_history_fst]

/-- A property of storages that the updates of the value maps keep. -/
structure Stable (P : InMemoryStorage V → Prop) : Prop where
  delete_key : ∀ (storage : InMemoryStorage V) (key : String), P storage → P (storage.delete_key key)
  put_value : ∀ (storage : InMemoryStorage V) (key : String) (value : V), P storage → P (storage.put_value key value)
  touch_key : ∀ (storage : InMemoryStorage V) (key : String) (now : ℚ), P storage → P (storage.touch_key key now)
  set_expiry : ∀ (storage : InMemoryStorage V) (key : String) (now : ℚ) (expire : Option ℤ),
    P storage → P (storage.set_expiry key now expire)

section Stability

variable {P : InMemoryStorage V → Prop} {self : InMemoryStorage V}

theorem Stable.foldl_delete_key (hstable : Stable P) (h : P self) (deleted : List String) :
    P (deleted.foldl InMemoryStorage.delete_key self) :=
  List.foldlRecOn deleted _ h (fun storage hstorage key _ => hstable.delete_key storage key hstorage)

theorem Stable.delete_if_expired (hstable : Stable P) (h : P self) (key : String) (now : ℚ) :
    P (self.delete_if_expired key now).2 := delete_if_expired_keeps h (hstable.delete_key self key h) now

theorem Stable.delete_expired (hstable : Stable P) (h : P self) (now : ℚ) (candidates : List String) :
    P (self.delete_expired now candidates).2 := by
  induction candidates generalizing self with
  | nil => exact h
  | cons candidate rest ih => exact ih (hstable.delete_if_expired h candidate now)

theorem Stable.evict_keys (hstable : Stable P) (h : P self) (key : String) (now : ℚ) :
    P (self.evict_keys_if_needed key now).2 := by
  have hswept := hstable.delete_expired h now self.values.keys
  unfold evict_keys_if_needed
  split
  · exact h
  · simp only
    split
    · exact hswept
    · split
      · exact hswept
      · exact hstable.foldl_delete_key hswept _

variable [PyValue V]

/-- A value operation is made of these updates. -/
theorem Stable.operate (hstable : Stable P) (h : P self) (now : ℚ) {operation : Operation V} {key : String}
    (hkey : operation.key = some key) : P (self.operate now operation).2 := by
  cases operation with
  | get read =>
    have hcheck := hstable.delete_if_expired h read now
    simp only [InMemoryStorage.operate, get]
    split
    · next hdeleted => rwa [hdeleted] at hcheck
    · next hkept =>
      rw [hkept] at hcheck
      split
      · exact hcheck
      · exact hstable.touch_key _ read now hcheck
  | set put value expire =>
    have hevict := hstable.evict_keys h put now
    simp only [InMemoryStorage.operate, set]
    cases validate_expire expire with
    | error e => exact h
    | ok _ =>
      simp only
      split
      · next hfull => rwa [hfull] at hevict
      · next hroom =>
        rw [hroom] at hevict
        apply hstable.set_expiry
        apply hstable.touch_key
        exact hstable.put_value _ put value hevict
  | incr counted expire =>
    have hevict := hstable.evict_keys (hstable.delete_if_expired h counted now) counted now
    simp only [InMemoryStorage.operate, incr]
    cases validate_expire expire with
    | error e => exact h
    | ok _ =>
      simp only
      split
      · next hfull => rwa [hfull] at hevict
      · next hroom =>
        rw [hroom] at hevict
        split
        · exact hevict
        · next previous _ =>
          have hput := hstable.put_value _ counted (PyValue.int (previous + 1)) hevict
          have htouched := hstable.touch_key _ counted now hput
          simp only
          split
          · exact hstable.set_expiry _ counted now expire htouched
          · exact htouched
  | delete deleted => exact hstable.delete_key self deleted h
  | record_hit => cases hkey
  | cleanup_handler_counters => cases hkey
  | cleanup_orphaned_counters => cases hkey

end Stability

/-- A storage with the counters of another one. -/
def SameCounters (self after : InMemoryStorage V) : Prop :=
  after.request_counters = self.request_counters ∧ after.max_counters = self.max_counters

theorem stable_same_counters (self : InMemoryStorage V) : Stable self.SameCounters where
  delete_key _ _ hsame := hsame
  put_value _ _ _ hsame := hsame
  touch_key _ _ _ hsame := hsame
  set_expiry _ _ _ expire hsame := by cases expire <;> exact hsame

section Operations

variable [PyValue V]

/-- The value operations leave every counter alone. -/
theorem same_counters_operate (self : InMemoryStorage V) (now : ℚ) {operation : Operation V} {key : String}
    (hkey : operation.key = some key) : self.SameCounters (self.operate now operation).2 :=
  self.stable_same_counters.operate ⟨rfl, rfl⟩ now hkey

/-- What a counter holds after an access that is no hit of it: what it held
    before, or what pruning it with the window of its rule leaves, unless that is
    nothing. -/
theorem get?_of_access {self : InMemoryStorage V} {access : Access V} {counter_key : CounterKey} {after : List ℚ}
    (hother : access.hits counter_key = false)
    (hafter : (self.access access).2.request_counters.get? counter_key = some after) :
    ∃ before, self.request_counters.get? counter_key = some before ∧
      (after = before ∨ ∃ active_rules window_seconds, access.operation = .cleanup_orphaned_counters active_rules ∧
        active_window active_rules counter_key = some window_seconds ∧ after ≠ [] ∧
        after = prune (access.now - window_seconds) before) := by
  obtain ⟨now, operation⟩ := access
  cases operation with
  | record_hit request_key handler_name rule_index window_seconds max_hits =>
    have hne : counter_key ≠ (request_key, handler_name, rule_index) := by
      rintro rfl
      simp [Access.hits] at hother
    simp only [InMemoryStorage.access, operate] at hafter
    cases hvalid : validate_max_hits max_hits with
    | error e =>
      simp only [record_hit, hvalid] at hafter
      exact ⟨after, hafter, Or.inl rfl⟩
    | ok _ =>
      rw [self.record_hit_eq_record now (request_key, handler_name, rule_index) window_seconds hvalid] at hafter
      simp only [store_history, OrderedDict.get?_set_of_ne _ _ hne] at hafter
      exact ⟨after, get?_of_counter_history hafter, Or.inl rfl⟩
  | cleanup_handler_counters handler_name =>
    simp only [InMemoryStorage.access, operate, cleanup_handler_counters, foldl_delete_key_request_counters,
      OrderedDict.get?_eraseAll] at hafter
    split at hafter
    · cases hafter
    · exact ⟨after, hafter, Or.inl rfl⟩
  | cleanup_orphaned_counters active_rules =>
    simp only [InMemoryStorage.access, operate, cleanup_orphaned_counters, OrderedDict.get?_eraseAll,
      OrderedDict.mem_keys_filter_iff, OrderedDict.get?_mapValues] at hafter
    cases hbefore : self.request_counters.get? counter_key with
    | none => simp [hbefore] at hafter
    | some before =>
      refine ⟨before, rfl, ?_⟩
      cases hwindow : active_window active_rules counter_key with
      | none => simp [hbefore, hwindow] at hafter
      | some window_seconds =>
        simp only [hbefore, hwindow, Option.map_some, cleanup_counter_eq_prune] at hafter
        split at hafter
        · cases hafter
        · next hkept =>
          cases hafter
          refine Or.inr ⟨active_rules, window_seconds, rfl, hwindow, fun hempty => hkept ?_, rfl⟩
          exact ⟨_, rfl, by simp [hempty]⟩
  | get read =>
    rw [InMemoryStorage.access, (self.same_counters_operate now rfl).1] at hafter
    exact ⟨after, hafter, Or.inl rfl⟩
  | set put value expire =>
    rw [InMemoryStorage.access, (self.same_counters_operate now rfl).1] at hafter
    exact ⟨after, hafter, Or.inl rfl⟩
  | incr counted expire =>
    rw [InMemoryStorage.access, (self.same_counters_operate now rfl).1] at hafter
    exact ⟨after, hafter, Or.inl rfl⟩
  | delete deleted =>
    rw [InMemoryStorage.access, (self.same_counters_operate now rfl).1] at hafter
    exact ⟨after, hafter, Or.inl rfl⟩

end Operations

end InMemoryStorage

end response_bandwidth_limiter.memory

import ResponseBandwidthLimiter.Backends.Memory.Histories
import ResponseBandwidthLimiter.Collections.Eviction

open collections sliding_window
open response_bandwidth_limiter.base response_bandwidth_limiter.models

namespace response_bandwidth_limiter.base

variable {V : Type}

/-- Whether an access is a hit of a counter, with a cap that passes its check. -/
def Access.counts (self : Access V) (counter_key : memory.CounterKey) : Bool :=
  match self.operation with
  | .record_hit request_key handler_name rule_index _ max_hits =>
    (request_key, handler_name, rule_index) = counter_key &&
      (memory.InMemoryStorage.validate_max_hits max_hits).isOk
  | _ => false

theorem Access.counts_iff {self : Access V} {counter_key : memory.CounterKey} :
    self.counts counter_key = true ↔ ∃ window_seconds max_hits,
      self.operation = .record_hit counter_key.1 counter_key.2.1 counter_key.2.2 window_seconds max_hits ∧
        memory.InMemoryStorage.validate_max_hits max_hits = .ok () := by
  unfold Access.counts
  cases self.operation with
  | record_hit request_key handler_name rule_index window_seconds max_hits =>
    rw [Bool.and_eq_true, decide_eq_true_iff]
    constructor
    · rintro ⟨rfl, hvalid⟩
      cases hcheck : memory.InMemoryStorage.validate_max_hits max_hits with
      | error e => simp [hcheck, Except.isOk, Except.toBool] at hvalid
      | ok _ => exact ⟨window_seconds, max_hits, rfl, hcheck⟩
    · rintro ⟨_, _, heq, hvalid⟩
      cases heq
      rw [hvalid]
      exact ⟨rfl, rfl⟩
  | _ => simp

end response_bandwidth_limiter.base

namespace response_bandwidth_limiter.memory

namespace InMemoryStorage

variable {V : Type} {self : InMemoryStorage V}

/-- Every counter holds a hit, and there are no more than the capacity. -/
structure Stocked (storage : InMemoryStorage V) : Prop where
  ne_nil : ∀ counter_key history, storage.request_counters.get? counter_key = some history → history ≠ []
  size_le : storage.request_counters.size ≤ storage.max_counters

/-- The number of counters that an eviction takes. -/
def trim_counters_by (self : InMemoryStorage V) : Nat := max 1 ((self.max_counters : Nat) / 10)

/-- The counters whose last stored hits are the oldest, as many as an eviction
    takes. -/
def oldest_counters (self : InMemoryStorage V) : List CounterKey :=
  (least (fun entry => last_hit entry.2) self.trim_counters_by self.request_counters.items).map Prod.fst

theorem oldest_counters_stored (self : InMemoryStorage V) :
    ∀ counter_key ∈ self.oldest_counters, counter_key ∈ self.request_counters.keys := by
  intro counter_key hmem
  obtain ⟨entry, hentry, rfl⟩ := List.mem_map.mp hmem
  exact List.mem_map.mpr ⟨entry, least_subset _ hentry, rfl⟩

theorem nodup_oldest_counters : self.oldest_counters.Nodup := nodup_map_least _ self.request_counters.nodup_keys

theorem Stocked.empty_keys_eq_nil (h : self.Stocked) :
    self.request_counters.items.filter (fun entry => entry.2 = []) = [] := by
  rw [List.filter_eq_nil_iff]
  rintro ⟨counter_key, history⟩ hmem
  simpa using h.ne_nil counter_key history (OrderedDict.get?_eq_some_iff.mpr hmem)

/-- At capacity the counters with the oldest last hits have to go. -/
theorem Stocked.evict_counters (h : self.Stocked) (hfull : self.request_counters.size = self.max_counters) :
    self.evict_counters_if_needed =
      { self with request_counters := self.request_counters.eraseAll self.oldest_counters } := by
  have hpos := self.max_counters.pos
  have hsame : self.request_counters.eraseAll [] = self.request_counters := rfl
  have hoverflow : self.request_counters.size -
      ((self.max_counters : Nat) - max 1 ((self.max_counters : Nat) / 10)) =
      self.trim_counters_by := by
    rw [trim_counters_by]
    omega
  have hfull' : ¬ self.request_counters.size < self.max_counters := by omega
  simp only [evict_counters_if_needed, h.empty_keys_eq_nil, List.map_nil, hsame, if_neg hfull', hoverflow, oldest_counters, least,
    List.map_take]

theorem Stocked.evict_counters_room (h : self.Stocked) :
    self.evict_counters_if_needed.request_counters.size < self.max_counters := by
  by_cases hroom : self.request_counters.size < self.max_counters
  · rw [evict_counters_if_needed, if_pos hroom]
    exact hroom
  · have hfull : self.request_counters.size = self.max_counters := le_antisymm h.size_le (not_lt.mp hroom)
    have hsize := OrderedDict.size_eraseAll nodup_oldest_counters self.oldest_counters_stored
    have hlength : self.oldest_counters.length = min self.trim_counters_by self.request_counters.size := by
      rw [oldest_counters, List.length_map, length_least]
      rfl
    have hpos := self.max_counters.pos
    rw [h.evict_counters hfull]
    simp only [trim_counters_by] at hlength ⊢
    omega

theorem max_counters_evict_counters (self : InMemoryStorage V) :
    self.evict_counters_if_needed.max_counters = self.max_counters := by
  unfold evict_counters_if_needed
  split
  · rfl
  · simp only
    split <;> rfl

/-- A hit leaves its counter with a history that is not empty. -/
theorem stored_ne_nil (self : InMemoryStorage V) (now : ℚ) (counter_key : CounterKey) (window_seconds : ℤ)
    {max_hits : Option ℤ} (hvalid : validate_max_hits max_hits = .ok ()) :
    record (window_seconds : ℚ) (capacity max_hits) (self.history counter_key) now ≠ [] := by
  apply record_ne_nil
  intro limit hlimit
  obtain ⟨cap, rfl, rfl⟩ := Option.map_eq_some_iff.mp hlimit
  have hpos := validate_limit_ok_iff.mp hvalid
  omega

section Steps

variable [PyValue V] {call : Access V} {counter_key : CounterKey}

/-- A counted hit is recorded in its counter, after room was made for it. -/
theorem access_of_counts (self : InMemoryStorage V) (hcounts : call.counts counter_key) :
    ∃ window_seconds max_hits, validate_max_hits max_hits = .ok () ∧
      (self.access call).2 = (self.counter_history counter_key).2.store_history counter_key
        (record (window_seconds : ℤ) (capacity max_hits) (self.history counter_key) call.now) := by
  obtain ⟨window_seconds, max_hits, hoperation, hvalid⟩ := Access.counts_iff.mp hcounts
  refine ⟨window_seconds, max_hits, hvalid, ?_⟩
  simp only [access, hoperation, operate, self.record_hit_eq_record call.now counter_key window_seconds hvalid]

/-- What a counter holds after an access that does not count for it. -/
theorem get?_of_not_counts (hother : call.counts counter_key = false) {after : List ℚ}
    (hafter : (self.access call).2.request_counters.get? counter_key = some after) :
    ∃ before, self.request_counters.get? counter_key = some before ∧
      (after = before ∨ after ≠ [] ∧ ∃ threshold, after = prune threshold before) := by
  cases hhits : call.hits counter_key with
  | false =>
    obtain ⟨before, hbefore, hsame | ⟨_, _, -, -, hkept, hpruned⟩⟩ := get?_of_access hhits hafter
    · exact ⟨before, hbefore, Or.inl hsame⟩
    · exact ⟨before, hbefore, Or.inr ⟨hkept, _, hpruned⟩⟩
  | true =>
    obtain ⟨window_seconds, max_hits, hoperation⟩ := Access.hits_iff.mp hhits
    have hinvalid : validate_max_hits max_hits ≠ .ok () := by
      intro hvalid
      rw [Access.counts_iff.mpr ⟨window_seconds, max_hits, hoperation, hvalid⟩] at hother
      cases hother
    have hsame : (self.access call).2 = self := by
      simp only [access, hoperation, operate, record_hit]
      cases hvalid : validate_max_hits max_hits with
      | error e => rfl
      | ok _ => exact absurd hvalid hinvalid
    rw [hsame] at hafter
    exact ⟨after, hafter, Or.inl rfl⟩

theorem Stocked.ne_nil_of_access (h : self.Stocked) {after : List ℚ}
    (hafter : (self.access call).2.request_counters.get? counter_key = some after) : after ≠ [] := by
  cases hcounts : call.counts counter_key with
  | true =>
    obtain ⟨window_seconds, max_hits, hvalid, haccess⟩ := self.access_of_counts hcounts
    rw [haccess, store_history, OrderedDict.get?_set_self] at hafter
    cases hafter
    exact self.stored_ne_nil call.now counter_key window_seconds hvalid
  | false =>
    obtain ⟨before, hbefore, rfl | ⟨hkept, -⟩⟩ := get?_of_not_counts hcounts hafter
    · exact h.ne_nil counter_key after hbefore
    · exact hkept

omit [PyValue V] in
/-- A hit of a new counter finds room for it. -/
theorem Stocked.size_store_le (h : self.Stocked) (counter_key : CounterKey) (stored : List ℚ) :
    ((self.counter_history counter_key).2.store_history counter_key stored).request_counters.size ≤
      ((self.counter_history counter_key).2.store_history counter_key stored).max_counters := by
  unfold counter_history
  cases hget : self.request_counters.get? counter_key with
  | some history =>
    have hmem := OrderedDict.mem_keys_iff.mpr ⟨history, hget⟩
    simp only [store_history, OrderedDict.size_set, if_pos hmem]
    exact h.size_le
  | none =>
    have hroom := h.evict_counters_room
    simp only [store_history, OrderedDict.size_set, max_counters_evict_counters]
    split <;> omega

/-- Every access keeps the storage stocked. -/
theorem Stocked.access (h : self.Stocked) (call : Access V) : (self.access call).2.Stocked := by
  refine ⟨fun counter_key after hafter => h.ne_nil_of_access hafter, ?_⟩
  have hkept : ∀ after, self.SameCounters after → after.request_counters.size ≤ after.max_counters := by
    rintro after ⟨hcounters, hmax⟩
    rw [hcounters, hmax]
    exact h.size_le
  obtain ⟨now, operation⟩ := call
  cases operation with
  | get read => exact hkept _ (self.same_counters_operate now rfl)
  | set put value expire => exact hkept _ (self.same_counters_operate now rfl)
  | incr counted expire => exact hkept _ (self.same_counters_operate now rfl)
  | delete deleted => exact hkept _ (self.same_counters_operate now rfl)
  | record_hit request_key handler_name rule_index window_seconds max_hits =>
    simp only [InMemoryStorage.access, operate]
    cases hvalid : validate_max_hits max_hits with
    | error e =>
      simp only [record_hit, hvalid]
      exact h.size_le
    | ok _ =>
      rw [self.record_hit_eq_record now (request_key, handler_name, rule_index) window_seconds hvalid]
      exact h.size_store_le _ _
  | cleanup_handler_counters handler_name =>
    simp only [InMemoryStorage.access, operate, cleanup_handler_counters, foldl_delete_key_request_counters,
      foldl_delete_key_max_counters]
    exact (OrderedDict.size_eraseAll_le _ _).trans h.size_le
  | cleanup_orphaned_counters active_rules =>
    refine (OrderedDict.size_eraseAll_le _ _).trans ?_
    rw [OrderedDict.size_mapValues]
    exact h.size_le

theorem stocked_of_run (max_keys max_counters : ℕ+) (accesses : List (Access V)) :
    (settle InMemoryStorage.access (fresh max_keys max_counters) accesses).Stocked := by
  induction accesses using List.reverseRecOn with
  | nil =>
    refine ⟨fun _ _ hnone => ?_, Nat.zero_le _⟩
    cases hnone
  | append_singleton earlier last ih =>
    rw [settle_concat]
    exact ih.access last

end Steps

section LastCalls

variable [PyValue V] {accesses : List (Access V)} {counter_key : CounterKey}

omit [PyValue V] in
/-- The clock reading of the last call on a counter, over the limit or not. -/
def last_call (accesses : List (Access V)) (counter_key : CounterKey) : Option ℚ :=
  (accesses.filter (fun call => call.counts counter_key)).getLast?.map Access.now

omit [PyValue V] in
theorem last_call_concat (earlier : List (Access V)) (last : Access V) (counter_key : CounterKey) :
    last_call (earlier ++ [last]) counter_key =
      if last.counts counter_key then some last.now else last_call earlier counter_key := by
  unfold last_call
  by_cases hcounts : last.counts counter_key = true
  · simp [hcounts]
  · simp [hcounts]

omit [PyValue V] in
theorem exists_of_last_call {time : ℚ} (hlast : last_call accesses counter_key = some time) :
    ∃ call ∈ accesses, call.now = time := by
  obtain ⟨call, hcall, hnow⟩ := Option.map_eq_some_iff.mp hlast
  exact ⟨call, List.mem_of_mem_filter (List.mem_of_getLast? hcall), hnow⟩

/-- The run lemma of the last calls: a stored counter was called, and holds no
    hit later than its last call. -/
theorem last_call_of_run (max_keys max_counters : ℕ+)
    (hmono : accesses.Pairwise (fun first second => first.now ≤ second.now)) {history : List ℚ}
    (hstored : (settle access (fresh max_keys max_counters) accesses).request_counters.get? counter_key =
      some history) :
    ∃ last, last_call accesses counter_key = some last ∧ ∀ hit ∈ history, hit ≤ last := by
  induction accesses using List.reverseRecOn generalizing history with
  | nil => cases hstored
  | append_singleton earlier last ih =>
    obtain ⟨hearlier, -, hlast⟩ := List.pairwise_append.mp hmono
    rw [settle_concat] at hstored
    rw [last_call_concat]
    cases hcounts : last.counts counter_key with
    | true =>
      obtain ⟨window_seconds, max_hits, -, haccess⟩ := access_of_counts _ hcounts
      rw [haccess, store_history, OrderedDict.get?_set_self] at hstored
      cases hstored
      refine ⟨last.now, if_pos rfl, fun hit hhit => ?_⟩
      rcases mem_of_mem_record hhit with hold | hnew
      · cases hget : (settle access (fresh max_keys max_counters) earlier).request_counters.get? counter_key with
        | none =>
          rw [InMemoryStorage.history, hget] at hold
          cases hold
        | some before =>
          rw [InMemoryStorage.history, hget] at hold
          obtain ⟨time, htime, hle⟩ := ih hearlier hget
          obtain ⟨call, hcall, rfl⟩ := exists_of_last_call htime
          exact (hle hit hold).trans (hlast call hcall last (by simp))
      · exact hnew.le
    | false =>
      obtain ⟨before, hbefore, hchange⟩ := get?_of_not_counts hcounts hstored
      obtain ⟨time, htime, hle⟩ := ih hearlier hbefore
      refine ⟨time, by simpa using htime, fun hit hhit => hle hit ?_⟩
      rcases hchange with rfl | ⟨-, threshold, rfl⟩
      · exact hhit
      · exact (prune_sublist _ _).subset hhit

/-- The call counts for a counter and is within its limit, so that the counter
    stores it. -/
def Stores (self : InMemoryStorage V) (call : Access V) (counter_key : CounterKey) : Prop :=
  ∃ window_seconds max_hits,
    call.operation = .record_hit counter_key.1 counter_key.2.1 counter_key.2.2 window_seconds max_hits ∧
    validate_max_hits max_hits = .ok () ∧
    below_cap max_hits (cleanup_counter (self.history counter_key) call.now window_seconds) = true

/-- The last call of a run on a counter was within its limit. -/
def LastCallStored (self : InMemoryStorage V) (accesses : List (Access V)) (counter_key : CounterKey) : Prop :=
  ∃ before call after, accesses = before ++ call :: after ∧ (settle access self before).Stores call counter_key ∧
    ∀ other ∈ after, other.counts counter_key = false

theorem getLast?_prune {threshold : ℚ} {history : List ℚ} (hkept : prune threshold history ≠ []) :
    (prune threshold history).getLast? = history.getLast? := by
  have hhistory : history ≠ [] := by
    rintro rfl
    exact hkept rfl
  rw [List.getLast?_eq_getLast_of_ne_nil hkept, List.getLast?_eq_getLast_of_ne_nil hhistory]
  exact congrArg some ((List.dropWhile_suffix _).getLast hkept)

/-- The last hit that a counter stores is then its last call. -/
theorem getLast?_of_lastCallStored (h : LastCallStored self accesses counter_key) {history : List ℚ}
    (hstored : (settle access self accesses).request_counters.get? counter_key = some history) :
    history.getLast? = last_call accesses counter_key := by
  obtain ⟨before, call, after, rfl, ⟨window_seconds, max_hits, hoperation, hvalid, hroom⟩, hafter⟩ := h
  have hcounts : call.counts counter_key := Access.counts_iff.mpr ⟨window_seconds, max_hits, hoperation, hvalid⟩
  induction after using List.reverseRecOn generalizing history with
  | nil =>
    rw [settle_concat, access, hoperation, operate,
      record_hit_eq_record _ _ counter_key window_seconds hvalid] at hstored
    simp only [store_history, OrderedDict.get?_set_self, Option.some.injEq] at hstored
    rw [last_call_concat, if_pos hcounts, ← hstored, ← stored_eq_record, if_pos hroom, List.getLast?_concat]
  | append_singleton earlier last ih =>
    have hother := hafter last (by simp)
    rw [← List.cons_append, ← List.append_assoc, settle_concat] at hstored
    rw [← List.cons_append, ← List.append_assoc, last_call_concat, hother]
    obtain ⟨found, hfound, hchange⟩ := get?_of_not_counts hother hstored
    have hlast := ih hfound (fun other hmem => hafter other (List.mem_append_left _ hmem))
    rcases hchange with rfl | ⟨hkept, threshold, rfl⟩
    · simpa using hlast
    · rw [getLast?_prune hkept]
      simpa using hlast

end LastCalls

section Eviction

variable [PyValue V] {accesses : List (Access V)} {call : Access V} {counter_key : CounterKey}

omit [PyValue V] in
/-- The counters that a change of the storage took out. -/
def evicted (self after : InMemoryStorage V) : List CounterKey :=
  self.request_counters.keys.filter (· ∉ after.request_counters.keys)

/-- Every evicted counter was last called no later than every counter that
    survives. -/
def SparesRecent (self : InMemoryStorage V) (accesses : List (Access V)) (call : Access V) : Prop :=
  ∀ evicted ∈ self.evicted (self.access call).2, ∀ other ∈ self.request_counters.keys,
    other ∈ (self.access call).2.request_counters.keys →
      ∃ first last, last_call accesses evicted = some first ∧ last_call accesses other = some last ∧ first ≤ last

/-- A hit of a new counter at capacity evicts the counters with the oldest last
    hits. -/
theorem Stocked.kept_iff (h : self.Stocked) (hcounts : call.counts counter_key)
    (habsent : counter_key ∉ self.request_counters.keys) (hfull : self.request_counters.size = self.max_counters)
    {other : CounterKey} (hother : other ∈ self.request_counters.keys) :
    other ∈ (self.access call).2.request_counters.keys ↔ other ∉ self.oldest_counters := by
  obtain ⟨window_seconds, max_hits, -, haccess⟩ := self.access_of_counts hcounts
  have hne : other ≠ counter_key := fun heq => habsent (heq ▸ hother)
  have hcounters : (self.counter_history counter_key).2 = self.evict_counters_if_needed := by
    rw [counter_history, OrderedDict.get?_eq_none_iff.mpr habsent]
  rw [haccess, store_history, OrderedDict.mem_keys_set, or_iff_right hne, hcounters, h.evict_counters hfull,
    OrderedDict.mem_keys_eraseAll, and_iff_right hother]

omit [PyValue V] in
/-- The last stored hit of an evicted counter is no later than that of any other. -/
theorem last_hit_le_of_oldest {oldest other : CounterKey} {first last : List ℚ}
    (holdest : oldest ∈ self.oldest_counters) (hother : other ∉ self.oldest_counters)
    (hfirst : self.request_counters.get? oldest = some first)
    (hlast : self.request_counters.get? other = some last) :
    last_hit first ≤ last_hit last := by
  obtain ⟨⟨_, found⟩, hleast, rfl⟩ := List.mem_map.mp holdest
  have hfound := OrderedDict.get?_eq_some_iff.mpr (least_subset _ hleast)
  simp only at hfound hfirst
  rw [hfirst] at hfound
  cases hfound
  refine rank_le_of_mem_least (fun entry : CounterKey × List ℚ => last_hit entry.2) hleast
    (OrderedDict.get?_eq_some_iff.mp hlast) (fun hchosen => hother (List.mem_map.mpr ⟨_, hchosen, rfl⟩))

/-- On a clock that does not go back, an eviction spares the counters with the
    most recent calls if every counter with one of the oldest last hits was
    within its limit at its last call. -/
theorem eviction_spares_recent (max_keys max_counters : ℕ+)
    (hmono : accesses.Pairwise (fun first second => first.now ≤ second.now))
    (hrun : settle access (fresh max_keys max_counters) accesses = self) (hcounts : call.counts counter_key)
    (habsent : counter_key ∉ self.request_counters.keys) (hfull : self.request_counters.size = self.max_counters)
    (hstored : ∀ oldest ∈ self.oldest_counters, LastCallStored (fresh max_keys max_counters) accesses oldest) :
    self.SparesRecent accesses call := by
  subst hrun
  have h := stocked_of_run max_keys max_counters accesses
  intro oldest hevicted other hother hkept
  obtain ⟨hmem, hgone⟩ := List.mem_filter.mp hevicted
  have holdest := not_not.mp ((h.kept_iff hcounts habsent hfull hmem).not.mp (of_decide_eq_true hgone))
  have hspared := (h.kept_iff hcounts habsent hfull hother).mp hkept
  obtain ⟨first, hfirst⟩ := OrderedDict.mem_keys_iff.mp hmem
  obtain ⟨last, hlast⟩ := OrderedDict.mem_keys_iff.mp hother
  have hle := last_hit_le_of_oldest holdest hspared hfirst hlast
  have hcalled := getLast?_of_lastCallStored (hstored oldest holdest) hfirst
  obtain ⟨time, htime, hlate⟩ := last_call_of_run max_keys max_counters hmono hlast
  have hfirst_last := List.getLast?_eq_getLast_of_ne_nil (h.ne_nil oldest first hfirst)
  have hlast_last := List.getLast?_eq_getLast_of_ne_nil (h.ne_nil other last hlast)
  refine ⟨_, time, hcalled.symm.trans hfirst_last, htime, ?_⟩
  simp only [last_hit, hfirst_last, hlast_last, WithBot.coe_le_coe] at hle
  exact hle.trans (hlate _ (List.getLast_mem _))

/-- A hit of a rule of one per minute by a client. -/
def knock (now : ℚ) (request_key : String) : Access PlainValue :=
  ⟨now, .record_hit request_key "login" 0 60 (some 2)⟩

/-- One client is over the limit at its second call, another one calls later. -/
def knocked : List (Access PlainValue) := [knock 0 "a", knock 1 "a", knock 5 "b"]

/-- The first one goes on calling, over the limit. -/
def hammered : List (Access PlainValue) := knocked ++ [knock 10 "a"]

private theorem oldest_of_items {storage : InMemoryStorage PlainValue} (hmax : storage.max_counters = 2)
    (hitems : storage.request_counters.items = [(("a", "login", 0), [0, 1]), (("b", "login", 0), [5])]) :
    storage.oldest_counters = [("a", "login", 0)] := by
  have hsorted : [(("a", "login", 0), [0, 1]), (("b", "login", 0), [5])].Pairwise
      (fun first second : CounterKey × List ℚ => decide (last_hit first.2 ≤ last_hit second.2) = true) := by
    decide +kernel
  rw [oldest_counters, least, hitems, List.mergeSort_of_pairwise hsorted, trim_counters_by, hmax]
  rfl

theorem knocked_spares_recent : (settle access (fresh 1 2) knocked).SparesRecent knocked (knock 11 "c") := by
  have hcounts : (knock 11 "c").counts ("c", "login", 0) = true := rfl
  apply eviction_spares_recent 1 2 (by decide +kernel) rfl hcounts (by decide +kernel) rfl
  rw [oldest_of_items rfl (by decide +kernel)]
  intro oldest holdest
  rw [List.mem_singleton.mp holdest]
  refine ⟨[knock 0 "a"], knock 1 "a", [knock 5 "b"], rfl, ⟨60, some 2, rfl, rfl, by decide +kernel⟩, ?_⟩
  decide +kernel

/-- A fresh client evicts the one that was rejected a second ago, and spares the
    one that has been idle for longer. -/
theorem hammered_not_spared :
    ¬ ∀ (accesses : List (Access PlainValue)) (call : Access PlainValue) (counter_key : CounterKey),
      accesses.Pairwise (fun first second => first.now ≤ second.now) → call.counts counter_key →
      counter_key ∉ (settle access (fresh 1 2) accesses).request_counters.keys →
      (settle access (fresh 1 2) accesses).request_counters.size = 2 →
      (settle access (fresh 1 2) accesses).SparesRecent accesses call := by
  intro hclaim
  have hcounts : (knock 11 "c").counts ("c", "login", 0) = true := rfl
  have habsent : ("c", "login", 0) ∉ (settle access (fresh 1 2) hammered).request_counters.keys := by decide +kernel
  have hspares := hclaim hammered (knock 11 "c") ("c", "login", 0) (by decide +kernel) hcounts habsent rfl
  have hmem : ∀ counter_key ∈ [("a", "login", 0), ("b", "login", 0)],
      counter_key ∈ (settle access (fresh 1 2) hammered).request_counters.keys := by decide +kernel
  have hkept := fun counter_key hcounter =>
    (stocked_of_run 1 2 hammered).kept_iff hcounts habsent rfl (hmem counter_key hcounter)
  rw [oldest_of_items rfl (by decide +kernel)] at hkept
  have hgone := (hkept ("a", "login", 0) (by decide)).not.mpr (by decide)
  obtain ⟨first, last, hfirst, hlast, hle⟩ := hspares ("a", "login", 0)
    (List.mem_filter.mpr ⟨hmem _ (by decide), decide_eq_true hgone⟩) ("b", "login", 0) (hmem _ (by decide))
    ((hkept ("b", "login", 0) (by decide)).mpr (by decide))
  have htimes : last_call hammered ("a", "login", 0) = some 10 ∧ last_call hammered ("b", "login", 0) = some 5 := by
    decide +kernel
  rw [htimes.1] at hfirst
  rw [htimes.2] at hlast
  cases hfirst
  cases hlast
  exact absurd hle (by decide +kernel)

end Eviction

end InMemoryStorage

end response_bandwidth_limiter.memory

import ResponseBandwidthLimiter.Backends.Memory.Values
import ResponseBandwidthLimiter.Collections.Eviction

open collections
open response_bandwidth_limiter.base response_bandwidth_limiter.models

namespace response_bandwidth_limiter.memory

namespace InMemoryStorage

variable {V : Type} {self : InMemoryStorage V}

/-- The time of a key has run out. -/
def Expired (self : InMemoryStorage V) (now : ℚ) (key : String) : Prop :=
  ∃ expires_at ∈ self.expires.get? key, expires_at ≤ now

instance (self : InMemoryStorage V) (now : ℚ) : DecidablePred (self.Expired now) := fun key =>
  inferInstanceAs (Decidable (∃ expires_at ∈ self.expires.get? key, expires_at ≤ now))

/-- The three maps of the values belong together, and keep to the capacity. -/
structure Coherent (storage : InMemoryStorage V) : Prop where
  attached : storage.Attached
  accessed : ∀ key, key ∈ storage.last_access.keys ↔ key ∈ storage.values.keys
  size_le : storage.values.size ≤ storage.max_keys

theorem Attached.mem_of_expired (h : self.Attached) {now : ℚ} {key : String} (hexpired : self.Expired now key) :
    key ∈ self.values.keys := by
  by_contra habsent
  obtain ⟨expires_at, hexpires, -⟩ := hexpired
  rw [h key (OrderedDict.get?_eq_none_iff.mpr habsent)] at hexpires
  cases hexpires

/-- Deleting keys one after the other takes them out of the three maps. -/
theorem foldl_delete_key (self : InMemoryStorage V) (deleted : List String) :
    deleted.foldl delete_key self =
      { self with
        values := self.values.eraseAll deleted
        expires := self.expires.eraseAll deleted
        last_access := self.last_access.eraseAll deleted } := by
  induction deleted generalizing self with
  | nil => rfl
  | cons key rest ih => exact ih (self.delete_key key)

/-- The sweep deletes the expired ones among its candidates. -/
theorem delete_expired_eq (self : InMemoryStorage V) (now : ℚ) {candidates : List String}
    (hnodup : candidates.Nodup) :
    self.delete_expired now candidates =
      (candidates.filter (self.Expired now), (candidates.filter (self.Expired now)).foldl delete_key self) := by
  induction candidates generalizing self with
  | nil => rfl
  | cons candidate rest ih =>
    obtain ⟨hfresh, hrest⟩ := List.nodup_cons.mp hnodup
    by_cases hexpired : self.Expired now candidate
    · have hothers : rest.filter ((self.delete_key candidate).Expired now) = rest.filter (self.Expired now) := by
        apply List.filter_congr
        intro other hother
        have hne : other ≠ candidate := fun heq => hfresh (heq ▸ hother)
        apply decide_eq_decide.mpr
        rw [Expired, Expired, delete_key, OrderedDict.get?_erase_of_ne _ hne]
      simp only [delete_expired, delete_if_expired_of_expired hexpired, ih _ hrest, hothers, if_true,
        List.filter_cons, hexpired, decide_true, List.foldl_cons]
    · simp only [delete_expired, delete_if_expired_of_not_expired hexpired, ih _ hrest, List.filter_cons, hexpired,
        decide_false, Bool.false_eq_true, if_false]

theorem delete_expired_of_none_expired {now : ℚ} (hnone : ∀ key ∈ self.values.keys, ¬ self.Expired now key) :
    self.delete_expired now self.values.keys = ([], self) := by
  rw [self.delete_expired_eq now self.values.keys_nodup,
    List.filter_eq_nil_iff.mpr (fun key hkey => by simpa using hnone key hkey)]
  rfl

section Eviction

variable {now : ℚ} {key : String}

theorem not_room (habsent : key ∉ self.values.keys) (hfull : self.values.size = self.max_keys) :
    ¬ (key ∈ self.values.keys ∨ self.values.size < self.max_keys) := by
  rintro (hmem | hroom)
  · exact habsent hmem
  · omega

/-- With an expired entry the sweep makes room. -/
theorem evict_keys_of_expired (habsent : key ∉ self.values.keys) (hfull : self.values.size = self.max_keys)
    (hexpired : ∃ stored ∈ self.values.keys, self.Expired now stored) :
    self.evict_keys_if_needed key now =
      (.ok (), (self.values.keys.filter (self.Expired now)).foldl delete_key self) := by
  have hsome : self.values.keys.filter (self.Expired now) ≠ [] := by
    obtain ⟨stored, hstored, hold⟩ := hexpired
    exact List.ne_nil_of_mem (List.mem_filter.mpr ⟨hstored, decide_eq_true hold⟩)
  simp only [evict_keys_if_needed, if_neg (not_room habsent hfull),
    self.delete_expired_eq now self.values.keys_nodup, ne_eq, hsome, not_false_eq_true, if_true]

/-- The number of keys that an eviction takes, if there are as many outside the
    IP controls. -/
def trim_by (self : InMemoryStorage V) : Nat := max 1 ((self.max_keys : Nat) / 10)

/-- Without one the least recently accessed keys have to go, and it raises when
    there are none but IP controls. -/
theorem evict_keys_of_none_expired (habsent : key ∉ self.values.keys) (hfull : self.values.size = self.max_keys)
    (hnone : ∀ stored ∈ self.values.keys, ¬ self.Expired now stored) :
    self.evict_keys_if_needed key now =
      if self.oldest_keys = [] then
        (.error (.storage_unavailable_error "In-memory storage is full of IP control entries."), self)
      else (.ok (), (self.oldest_keys.take self.trim_by).foldl delete_key self) := by
  have hpos := self.max_keys.pos
  have hoverflow : self.values.size - ((self.max_keys : Nat) - max 1 ((self.max_keys : Nat) / 10)) =
      self.trim_by := by
    rw [trim_by]
    omega
  simp only [evict_keys_if_needed, if_neg (not_room habsent hfull), delete_expired_of_none_expired hnone, ne_eq,
    not_true_eq_false, if_false, hoverflow]

end Eviction

section Coherence

variable {now : ℚ}

theorem coherent_fresh (max_keys max_counters : ℕ+) :
    (fresh max_keys max_counters : InMemoryStorage V).Coherent where
  attached _ _ := rfl
  accessed _ := Iff.rfl
  size_le := Nat.zero_le _

theorem Coherent.delete_keys (h : self.Coherent) (deleted : List String) :
    (deleted.foldl InMemoryStorage.delete_key self).Coherent := by
  rw [foldl_delete_key]
  refine ⟨fun key hmissing => ?_, fun key => ?_, ?_⟩
  · rw [OrderedDict.get?_eraseAll] at hmissing ⊢
    split
    · rfl
    · next hkept =>
      rw [if_neg hkept] at hmissing
      exact h.attached key hmissing
  · rw [OrderedDict.mem_keys_eraseAll, OrderedDict.mem_keys_eraseAll, h.accessed]
  · exact (OrderedDict.size_eraseAll_le _ _).trans h.size_le

theorem Coherent.delete_if_expired (h : self.Coherent) (candidate : String) (now : ℚ) :
    (self.delete_if_expired candidate now).2.Coherent := delete_if_expired_keeps h (h.delete_keys [candidate]) now

/-- A value that has room can be put and is then accessed. -/
theorem Coherent.put (h : self.Coherent) {key : String}
    (hroom : key ∈ self.values.keys ∨ self.values.size < self.max_keys) (value : V) (now : ℚ) :
    ((self.put_value key value).touch_key key now).Coherent := by
  refine ⟨h.attached.put_value key value, fun query => ?_, ?_⟩
  · change query ∈ (self.last_access.set key now).keys ↔ query ∈ (self.values.set key value).keys
    rw [OrderedDict.mem_keys_set, OrderedDict.mem_keys_set, h.accessed]
  · change (self.values.set key value).size ≤ self.max_keys
    have hsize := h.size_le
    rw [OrderedDict.size_set]
    split
    · exact hsize
    · next habsent =>
      have hless := hroom.resolve_left habsent
      omega

theorem Coherent.set_expiry (h : self.Coherent) {key : String} (hkey : self.values.get? key ≠ none) (now : ℚ)
    (expire : Option ℤ) : (self.set_expiry key now expire).Coherent := by
  refine ⟨h.attached.set_expiry hkey now expire, ?_, ?_⟩
  · cases expire <;> exact h.accessed
  · cases expire <;> exact h.size_le

theorem mem_oldest_keys {key : String} :
    key ∈ self.oldest_keys ↔ key ∈ self.last_access.keys ∧ ¬ is_control_key key := by
  simp only [oldest_keys, List.mem_map, List.mem_mergeSort, List.mem_filter, OrderedDict.keys]
  constructor
  · rintro ⟨entry, ⟨hentry, hspared⟩, rfl⟩
    exact ⟨⟨entry, hentry, rfl⟩, by simpa [is_control_key] using hspared⟩
  · rintro ⟨⟨entry, hentry, rfl⟩, hspared⟩
    exact ⟨entry, ⟨hentry, by simpa [is_control_key] using hspared⟩, rfl⟩

theorem Coherent.mem_oldest_keys (h : self.Coherent) {key : String} :
    key ∈ self.oldest_keys ↔ key ∈ self.values.keys ∧ ¬ is_control_key key := by
  rw [InMemoryStorage.mem_oldest_keys, h.accessed]

/-- Making room only deletes keys, and unless it raises or has room already it
    deletes some. -/
theorem Coherent.evict_keys_deletes (h : self.Coherent) (key : String) (now : ℚ) :
    ∃ deleted : List String, (self.evict_keys_if_needed key now).2 = deleted.foldl InMemoryStorage.delete_key self ∧
      ((self.evict_keys_if_needed key now).1 = .ok () →
        key ∈ self.values.keys ∨ self.values.size < self.max_keys ∨
          ∃ stored ∈ deleted, stored ∈ self.values.keys) := by
  by_cases hroom : key ∈ self.values.keys ∨ self.values.size < self.max_keys
  · rw [evict_keys_if_needed_of_room now hroom]
    exact ⟨[], rfl, fun _ => hroom.imp_right Or.inl⟩
  · obtain ⟨habsent, hless⟩ := not_or.mp hroom
    have hfull : self.values.size = self.max_keys := le_antisymm h.size_le (not_lt.mp hless)
    by_cases hexpired : ∃ stored ∈ self.values.keys, self.Expired now stored
    · rw [evict_keys_of_expired habsent hfull hexpired]
      obtain ⟨stored, hstored, hold⟩ := hexpired
      exact ⟨_, rfl, fun _ => Or.inr (Or.inr ⟨stored, List.mem_filter.mpr ⟨hstored, decide_eq_true hold⟩, hstored⟩)⟩
    · rw [evict_keys_of_none_expired habsent hfull (fun stored hstored hold => hexpired ⟨stored, hstored, hold⟩)]
      split
      · exact ⟨[], rfl, fun hraised => by cases hraised⟩
      · next hsome =>
        refine ⟨_, rfl, fun _ => Or.inr (Or.inr ?_)⟩
        obtain ⟨oldest, rest, holdest⟩ := List.exists_cons_of_ne_nil hsome
        refine ⟨oldest, ?_, (h.mem_oldest_keys.mp (by simp [holdest])).1⟩
        rw [holdest, List.take_cons (by simp [trim_by])]
        exact List.mem_cons_self

/-- Making room keeps the maps together, and leaves room unless it raises. -/
theorem Coherent.evict_keys (h : self.Coherent) (key : String) (now : ℚ) :
    (self.evict_keys_if_needed key now).2.Coherent ∧
      ((self.evict_keys_if_needed key now).1 = .ok () →
        key ∈ (self.evict_keys_if_needed key now).2.values.keys ∨
          (self.evict_keys_if_needed key now).2.values.size < (self.evict_keys_if_needed key now).2.max_keys) := by
  by_cases hroom : key ∈ self.values.keys ∨ self.values.size < self.max_keys
  · rw [evict_keys_if_needed_of_room now hroom]
    exact ⟨h, fun _ => hroom⟩
  · obtain ⟨deleted, hstate, hdeleted⟩ := h.evict_keys_deletes key now
    rw [hstate]
    refine ⟨h.delete_keys deleted, fun hreturned => Or.inr ?_⟩
    obtain ⟨habsent, hless⟩ := not_or.mp hroom
    obtain ⟨stored, hmem, hstored⟩ := ((hdeleted hreturned).resolve_left habsent).resolve_left hless
    rw [foldl_delete_key]
    refine lt_of_lt_of_le ?_ h.size_le
    change (self.values.eraseAll deleted).size < self.values.size
    rw [← OrderedDict.keys_length, ← OrderedDict.keys_length, OrderedDict.keys_eraseAll]
    exact List.length_filter_lt_length_iff_exists.mpr ⟨stored, hstored, by simpa using hmem⟩

/-- A hit changes the counters only. -/
theorem record_hit_counters (self : InMemoryStorage V) (now : ℚ) (request_key handler_name : String)
    (rule_index : Nat) (window_seconds : ℤ) (max_hits : Option ℤ) :
    ∃ request_counters, (self.record_hit now request_key handler_name rule_index window_seconds max_hits).2 =
      { self with request_counters } := by
  have hevict : ∃ request_counters, self.evict_counters_if_needed = { self with request_counters } := by
    unfold evict_counters_if_needed
    split
    · exact ⟨_, rfl⟩
    · simp only
      split <;> exact ⟨_, rfl⟩
  unfold record_hit counter_history
  cases validate_max_hits max_hits with
  | error e => exact ⟨_, rfl⟩
  | ok _ =>
    cases hstored : self.request_counters.get? (request_key, handler_name, rule_index) with
    | some history =>
      simp only [hstored]
      exact ⟨_, rfl⟩
    | none =>
      obtain ⟨request_counters, hevict⟩ := hevict
      simp only [hstored, hevict]
      exact ⟨_, rfl⟩

end Coherence

section Operations

variable [PyValue V] {now : ℚ}

theorem Coherent.get (h : self.Coherent) (now : ℚ) (read : String) : (self.get now read).2.Coherent := by
  have hswept := h.delete_if_expired read now
  unfold InMemoryStorage.get
  split
  · next hdeleted => rwa [hdeleted] at hswept
  · next hkept =>
    rw [hkept] at hswept
    split
    · exact hswept
    · next value hvalue =>
      have hmem := OrderedDict.mem_keys_iff.mpr ⟨value, hvalue⟩
      refine ⟨hswept.attached, fun key => ?_, hswept.size_le⟩
      rw [touch_key, OrderedDict.mem_keys_set, hswept.accessed, or_iff_right_of_imp]
      rintro rfl
      exact hmem

omit [PyValue V] in
theorem Coherent.set (h : self.Coherent) (now : ℚ) (key : String) (value : V) (expire : Option ℤ) :
    (self.set now key value expire).2.Coherent := by
  obtain ⟨hkept, hroom⟩ := h.evict_keys key now
  unfold InMemoryStorage.set
  cases validate_expire expire with
  | error e => exact h
  | ok _ =>
    simp only
    split
    · next hraised => rwa [hraised] at hkept
    · next hreturned =>
      rw [hreturned] at hkept hroom
      refine (hkept.put (hroom rfl) value now).set_expiry ?_ now expire
      simp [put_value, touch_key]

theorem Coherent.incr (h : self.Coherent) (now : ℚ) (key : String) (expire : Option ℤ) :
    (self.incr now key expire).2.Coherent := by
  obtain ⟨hkept, hroom⟩ := (h.delete_if_expired key now).evict_keys key now
  unfold InMemoryStorage.incr
  cases validate_expire expire with
  | error e => exact h
  | ok _ =>
    simp only
    split
    · next hraised => rwa [hraised] at hkept
    · next hreturned =>
      rw [hreturned] at hkept hroom
      split
      · exact hkept
      · next previous _ =>
        have hput := hkept.put (hroom rfl) (PyValue.int (previous + 1)) now
        simp only
        split
        · refine hput.set_expiry ?_ now expire
          simp [put_value, touch_key]
        · exact hput

/-- Every operation keeps the maps together. -/
theorem Coherent.operate (h : self.Coherent) (now : ℚ) (operation : Operation V) :
    (self.operate now operation).2.Coherent := by
  cases operation with
  | get read => exact h.get now read
  | set put value expire => exact h.set now put value expire
  | incr counted expire => exact h.incr now counted expire
  | delete deleted => exact h.delete_keys [deleted]
  | record_hit request_key handler_name rule_index window_seconds max_hits =>
    obtain ⟨request_counters, hcounters⟩ :=
      self.record_hit_counters now request_key handler_name rule_index window_seconds max_hits
    simp only [InMemoryStorage.operate, hcounters]
    exact ⟨h.attached, h.accessed, h.size_le⟩
  | cleanup_handler_counters handler_name =>
    refine Coherent.delete_keys ?_ _
    exact ⟨h.attached, h.accessed, h.size_le⟩
  | cleanup_orphaned_counters active_rules => exact ⟨h.attached, h.accessed, h.size_le⟩

/-- The storages that the public operations lead to. -/
def Reachable (self : InMemoryStorage V) : Prop :=
  ∃ max_keys max_counters accesses, settle access (fresh max_keys max_counters) accesses = self

theorem coherent_of_run (max_keys max_counters : ℕ+) (accesses : List (Access V)) :
    (settle access (fresh max_keys max_counters) accesses).Coherent := by
  induction accesses using List.reverseRecOn with
  | nil => exact coherent_fresh max_keys max_counters
  | append_singleton earlier last ih =>
    rw [settle_concat]
    exact ih.operate last.now last.operation

theorem Reachable.coherent (h : self.Reachable) : self.Coherent := by
  obtain ⟨max_keys, max_counters, accesses, rfl⟩ := h
  exact coherent_of_run max_keys max_counters accesses

end Operations

section Failures

/-- As many unexpired IP controls as the storage has room for. -/
def FullOfControls (self : InMemoryStorage V) (now : ℚ) : Prop :=
  self.values.size = self.max_keys ∧ ∀ key ∈ self.values.keys, is_control_key key ∧ ¬ self.Expired now key

/-- The call raised StorageUnavailableError. -/
def Unavailable {R : Type} (result : Except PyError R) : Prop :=
  ∃ message, result = .error (.storage_unavailable_error message)

variable {now : ℚ} {key : String}

/-- Making room raises for an absent key in a storage full of controls. -/
theorem Coherent.evict_keys_of_full (h : self.Coherent) (habsent : key ∉ self.values.keys)
    (hfull : self.FullOfControls now) : Unavailable (self.evict_keys_if_needed key now).1 := by
  obtain ⟨hsize, hcontrols⟩ := hfull
  have hempty : self.oldest_keys = [] := by
    rw [List.eq_nil_iff_forall_not_mem]
    intro stored hstored
    obtain ⟨hmem, hother⟩ := h.mem_oldest_keys.mp hstored
    exact hother (hcontrols stored hmem).1
  rw [evict_keys_of_none_expired habsent hsize (fun stored hstored => (hcontrols stored hstored).2), if_pos hempty]
  exact ⟨_, rfl⟩

/-- It raises in no other case, and then leaves the storage as it is. -/
theorem Coherent.evict_keys_raises (h : self.Coherent) {e : PyError} {after : InMemoryStorage V}
    (hraises : self.evict_keys_if_needed key now = (.error e, after)) :
    after = self ∧ key ∉ self.values.keys ∧ self.FullOfControls now := by
  by_cases hroom : key ∈ self.values.keys ∨ self.values.size < self.max_keys
  · rw [evict_keys_if_needed_of_room now hroom] at hraises
    cases hraises
  · obtain ⟨habsent, hless⟩ := not_or.mp hroom
    have hsize : self.values.size = self.max_keys := le_antisymm h.size_le (not_lt.mp hless)
    by_cases hexpired : ∃ stored ∈ self.values.keys, self.Expired now stored
    · rw [evict_keys_of_expired habsent hsize hexpired] at hraises
      cases hraises
    · have hnone : ∀ stored ∈ self.values.keys, ¬ self.Expired now stored :=
        fun stored hstored hold => hexpired ⟨stored, hstored, hold⟩
      rw [evict_keys_of_none_expired habsent hsize hnone] at hraises
      split at hraises
      · next hempty =>
        cases hraises
        refine ⟨rfl, habsent, hsize, fun stored hstored => ⟨?_, hnone stored hstored⟩⟩
        by_contra hother
        exact List.ne_nil_of_mem (h.mem_oldest_keys.mpr ⟨hstored, hother⟩) hempty
      · cases hraises

/-- A `set` raises for want of room, and then changes nothing. -/
theorem Coherent.set_raises (h : self.Coherent) {value : V} {expire : Option ℤ}
    (hvalid : validate_expire expire = .ok ()) {e : PyError}
    (hraises : (self.set now key value expire).1 = .error e) :
    (self.set now key value expire).2 = self ∧ key ∉ self.values.keys ∧ self.FullOfControls now := by
  simp only [InMemoryStorage.set, hvalid] at hraises ⊢
  cases hevict : self.evict_keys_if_needed key now with
  | mk result after =>
    cases result with
    | error raised =>
      obtain ⟨hsame, hfull⟩ := h.evict_keys_raises hevict
      exact ⟨hsame, hfull⟩
    | ok _ =>
      rw [hevict] at hraises
      cases hraises

theorem Coherent.set_unavailable_iff (h : self.Coherent) {value : V} {expire : Option ℤ}
    (hvalid : validate_expire expire = .ok ()) :
    Unavailable (self.set now key value expire).1 ↔ key ∉ self.values.keys ∧ self.FullOfControls now := by
  constructor
  · rintro ⟨message, hraises⟩
    exact (h.set_raises hvalid hraises).2
  · rintro ⟨habsent, hfull⟩
    obtain ⟨message, hraised⟩ := h.evict_keys_of_full habsent hfull
    refine ⟨message, ?_⟩
    simp only [InMemoryStorage.set, hvalid]
    cases hevict : self.evict_keys_if_needed key now with
    | mk result after =>
      rw [hevict] at hraised
      cases hraised
      rfl

/-- Making room for an absent key never adds it. -/
theorem Coherent.get?_of_evict_keys (h : self.Coherent) {after : InMemoryStorage V}
    (hevict : self.evict_keys_if_needed key now = (.ok (), after)) :
    (after = self ∧ key ∈ self.values.keys) ∨ after.values.get? key = none := by
  by_cases hmem : key ∈ self.values.keys
  · rw [evict_keys_if_needed_of_room now (Or.inl hmem)] at hevict
    cases hevict
    exact Or.inl ⟨rfl, hmem⟩
  · obtain ⟨deleted, hstate, -⟩ := h.evict_keys_deletes key now
    rw [hevict, foldl_delete_key] at hstate
    subst hstate
    right
    simp only [OrderedDict.get?_eraseAll, OrderedDict.get?_eq_none_iff.mpr hmem, ite_self]

section Counting

variable [PyValue V] {expire : Option ℤ}

/-- An expired key is counted from zero, in the room that it leaves. -/
theorem Coherent.incr_of_expired (h : self.Coherent) (hexpired : self.Expired now key)
    (hvalid : validate_expire expire = .ok ()) : (self.incr now key expire).1 = .ok 1 := by
  have hstored := h.attached.mem_of_expired hexpired
  have hroom : (self.delete_key key).values.size < (self.delete_key key).max_keys :=
    lt_of_lt_of_le (OrderedDict.size_erase_lt hstored) h.size_le
  have hgone : (self.delete_key key).values.get? key = none := OrderedDict.get?_erase_self _ _
  simp only [InMemoryStorage.incr, hvalid, delete_if_expired_of_expired hexpired,
    evict_keys_if_needed_of_room now (Or.inr hroom), hgone, Option.elim_none, zero_add]

/-- An `incr` raises for want of room, or because `int()` rejects the stored
    value, and then no room had to be made. It changes nothing either way. -/
theorem Coherent.incr_raises (h : self.Coherent) (hvalid : validate_expire expire = .ok ()) {e : PyError}
    (hraises : (self.incr now key expire).1 = .error e) :
    (self.incr now key expire).2 = self ∧
      ((key ∉ self.values.keys ∧ self.FullOfControls now) ∨ ∃ value, PyValue.as_int (value : V) = .error e) := by
  by_cases hexpired : self.Expired now key
  · rw [h.incr_of_expired hexpired hvalid] at hraises
    cases hraises
  · simp only [InMemoryStorage.incr, hvalid, delete_if_expired_of_not_expired hexpired] at hraises ⊢
    cases hevict : self.evict_keys_if_needed key now with
    | mk result after =>
      cases result with
      | error raised =>
        obtain ⟨hsame, hfull⟩ := h.evict_keys_raises hevict
        exact ⟨hsame, Or.inl hfull⟩
      | ok _ =>
        simp only [hevict] at hraises ⊢
        rcases h.get?_of_evict_keys hevict with ⟨rfl, hmem⟩ | hgone
        · obtain ⟨value, hvalue⟩ := OrderedDict.mem_keys_iff.mp hmem
          simp only [hvalue, Option.elim_some] at hraises ⊢
          cases hint : PyValue.as_int value with
          | error rejected =>
            rw [hint] at hraises
            cases hraises
            exact ⟨rfl, Or.inr ⟨value, hint⟩⟩
          | ok previous =>
            rw [hint] at hraises
            cases hraises
        · simp [hgone] at hraises

theorem Coherent.incr_unavailable_iff (h : self.Coherent)
    (hint : ∀ (value : V) message, PyValue.as_int value ≠ .error (.storage_unavailable_error message))
    (hvalid : validate_expire expire = .ok ()) :
    Unavailable (self.incr now key expire).1 ↔
      (key ∉ self.values.keys ∨ self.Expired now key) ∧ self.FullOfControls now := by
  constructor
  · rintro ⟨message, hraises⟩
    rcases (h.incr_raises hvalid hraises).2 with ⟨habsent, hfull⟩ | ⟨value, hrejected⟩
    · exact ⟨Or.inl habsent, hfull⟩
    · exact absurd hrejected (hint value message)
  · rintro ⟨hgone, hfull⟩
    have hexpired : ¬ self.Expired now key :=
      fun hexpired => (hfull.2 key (h.attached.mem_of_expired hexpired)).2 hexpired
    obtain ⟨message, hraised⟩ := h.evict_keys_of_full (hgone.resolve_right hexpired) hfull
    refine ⟨message, ?_⟩
    simp only [InMemoryStorage.incr, hvalid, delete_if_expired_of_not_expired hexpired]
    cases hevict : self.evict_keys_if_needed key now with
    | mk result after =>
      rw [hevict] at hraised
      cases hraised
      rfl

/-- Whatever operation raises, it leaves the storage as it was. -/
theorem Coherent.operate_raises (h : self.Coherent) {operation : Operation V} {e : PyError}
    (hraises : (self.operate now operation).1 = .error e) : (self.operate now operation).2 = self := by
  cases operation with
  | get read => cases hraises
  | set put value expire =>
    simp only [InMemoryStorage.operate] at hraises ⊢
    cases hvalid : validate_expire expire with
    | error _ => simp only [InMemoryStorage.set, hvalid]
    | ok _ =>
      cases hset : (self.set now put value expire).1 with
      | error raised => exact (h.set_raises hvalid hset).1
      | ok _ =>
        rw [hset] at hraises
        cases hraises
  | incr counted expire =>
    simp only [InMemoryStorage.operate] at hraises ⊢
    cases hvalid : validate_expire expire with
    | error _ => simp only [InMemoryStorage.incr, hvalid]
    | ok _ =>
      cases hincr : (self.incr now counted expire).1 with
      | error raised => exact (h.incr_raises hvalid hincr).1
      | ok _ =>
        rw [hincr] at hraises
        cases hraises
  | delete deleted => cases hraises
  | record_hit request_key handler_name rule_index window_seconds max_hits =>
    simp only [InMemoryStorage.operate, InMemoryStorage.record_hit] at hraises ⊢
    cases hvalid : validate_max_hits max_hits with
    | error raised => rfl
    | ok _ =>
      rw [hvalid] at hraises
      cases hraises
  | cleanup_handler_counters handler_name => cases hraises
  | cleanup_orphaned_counters active_rules => cases hraises

end Counting

theorem as_int_plain (value : PlainValue) (message : String) :
    PyValue.as_int value ≠ .error (.storage_unavailable_error message) := by
  intro hraised
  cases value with
  | none => cases hraised
  | int number => cases hraised
  | str text =>
    simp only [PyValue.as_int] at hraised
    split at hraised <;> cases hraised

/-- A storage for one entry, which is a block. -/
def one_block (storage : InMemoryStorage PlainValue) : InMemoryStorage PlainValue :=
  settle access storage [⟨0, .set "ip:block:192.0.2.1" (.str "1") none⟩]

end Failures

end InMemoryStorage

end response_bandwidth_limiter.memory

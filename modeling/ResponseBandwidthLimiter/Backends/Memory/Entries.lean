import ResponseBandwidthLimiter.Backends.Memory.Storage
import ResponseBandwidthLimiter.Collections.ExpiringMap

open collections
open response_bandwidth_limiter.base response_bandwidth_limiter.models

namespace response_bandwidth_limiter.memory

variable {V : Type}

namespace InMemoryStorage

/-- The value stored at a key, with its expiry. -/
def entry (self : InMemoryStorage V) (key : String) : Option (Timed V ℚ) :=
  (self.values.get? key).map (fun value => ⟨value, self.expires.get? key⟩)

/-- What a reader of a key sees at a time. -/
def visible (self : InMemoryStorage V) (now : ℚ) (key : String) : Option (Timed V ℚ) :=
  live now (self.entry key)

/-- The time at which an entry written now expires. -/
def expiry (now : ℚ) (expire : Option ℤ) : Option ℚ := expire.map (fun seconds : ℤ => now + seconds)

/-- A key of the IP controls, which eviction spares. -/
def is_control_key (key : String) : Prop := starts_with key "ip:" = true

instance : DecidablePred is_control_key := fun key => inferInstanceAs (Decidable (starts_with key "ip:" = true))

/-- An entry written at a time can be read until its duration has elapsed. -/
theorem alive_expiry_iff {A : Type} (value : A) {written now : ℚ} {duration : Option ℤ} :
    Timed.alive now ⟨value, expiry written duration⟩ = true ↔ ∀ seconds ∈ duration, now < written + (seconds : ℤ) := by
  rw [Timed.alive_iff]
  cases duration <;> simp [expiry]

/-- Reading later needs only what was visible before. -/
theorem visible_advance (self : InMemoryStorage V) {now later : ℚ} (hle : now ≤ later) (key : String) :
    self.visible later key = live later (self.visible now key) :=
  (live_live_of_le hle _).symm

@[simp] theorem entry_touch_key (self : InMemoryStorage V) (touched : String) (now : ℚ) (key : String) :
    (self.touch_key touched now).entry key = self.entry key := rfl

theorem entry_delete_key (self : InMemoryStorage V) (deleted key : String) :
    (self.delete_key deleted).entry key = if key = deleted then none else self.entry key := by
  by_cases heq : key = deleted <;> simp [entry, delete_key, OrderedDict.get?_erase, heq]

theorem entry_foldl_delete_key (self : InMemoryStorage V) (deleted : List String) (key : String) :
    (deleted.foldl delete_key self).entry key = if key ∈ deleted then none else self.entry key := by
  induction deleted generalizing self with
  | nil => simp
  | cons first rest ih =>
    rw [List.foldl_cons, ih, entry_delete_key]
    by_cases hrest : key ∈ rest
    · simp [hrest]
    · by_cases heq : key = first <;> simp [hrest, heq]

/-- Writing a value and its expiry determines the entry of that key and leaves
    the others. -/
theorem entry_put (self : InMemoryStorage V) (put : String) (value : V) (now : ℚ) (expire : Option ℤ)
    (key : String) :
    (((self.put_value put value).touch_key put now).set_expiry put now expire).entry key =
      if key = put then some ⟨value, expiry now expire⟩ else self.entry key := by
  cases expire with
  | none =>
    by_cases heq : key = put <;>
      simp [entry, expiry, set_expiry, touch_key, put_value, OrderedDict.get?_set, OrderedDict.get?_erase, heq]
  | some seconds =>
    by_cases heq : key = put <;>
      simp [entry, expiry, set_expiry, touch_key, put_value, OrderedDict.get?_set, heq]

theorem entry_put_value_of_ne (self : InMemoryStorage V) {put key : String} (value : V) (hne : key ≠ put) :
    (self.put_value put value).entry key = self.entry key := by
  simp [entry, put_value, OrderedDict.get?_set_of_ne _ _ hne]

theorem entry_set_expiry_of_ne (self : InMemoryStorage V) {put key : String} (now : ℚ)
    (expire : Option ℤ) (hne : key ≠ put) : (self.set_expiry put now expire).entry key = self.entry key := by
  cases expire with
  | none => simp [entry, set_expiry, OrderedDict.get?_erase_of_ne _ hne]
  | some seconds => simp [entry, set_expiry, OrderedDict.get?_set_of_ne _ _ hne]

theorem delete_if_expired_of_expired {self : InMemoryStorage V} {key : String} {now : ℚ}
    (hexpired : ∃ expires_at ∈ self.expires.get? key, expires_at ≤ now) :
    self.delete_if_expired key now = (true, self.delete_key key) := by
  obtain ⟨expires_at, hexpires, hle⟩ := hexpired
  rw [Option.mem_def] at hexpires
  simp [delete_if_expired, hexpires, not_lt_of_ge hle]

theorem delete_if_expired_of_not_expired {self : InMemoryStorage V} {key : String} {now : ℚ}
    (hexpired : ¬ ∃ expires_at ∈ self.expires.get? key, expires_at ≤ now) :
    self.delete_if_expired key now = (false, self) := by
  unfold delete_if_expired
  cases hexpires : self.expires.get? key with
  | none => rfl
  | some expires_at =>
    have hlater : expires_at > now := lt_of_not_ge (fun hle => hexpired ⟨expires_at, hexpires, hle⟩)
    simp [hlater]

/-- The check of an expiry deletes the key or does nothing. -/
theorem delete_if_expired_keeps {P : InMemoryStorage V → Prop} {self : InMemoryStorage V} {key : String} (h : P self)
    (hdelete : P (self.delete_key key)) (now : ℚ) : P (self.delete_if_expired key now).2 := by
  unfold delete_if_expired
  split
  · exact h
  · split
    · exact h
    · exact hdelete

/-- Dropping an expired key changes nothing that can be seen. -/
theorem visible_delete_if_expired (self : InMemoryStorage V) (candidate : String) (now : ℚ) (key : String) :
    (self.delete_if_expired candidate now).2.visible now key = self.visible now key := by
  by_cases hexpired : ∃ expires_at ∈ self.expires.get? candidate, expires_at ≤ now
  · rw [delete_if_expired_of_expired hexpired, visible, entry_delete_key]
    by_cases heq : key = candidate
    · subst heq
      obtain ⟨expires_at, hexpires, hle⟩ := hexpired
      rw [Option.mem_def] at hexpires
      rw [if_pos rfl, visible, entry]
      cases self.values.get? key with
      | none => rfl
      | some value =>
        exact (live_some_of_not_alive (by simpa [Timed.alive, hexpires] using hle)).symm
    · rw [if_neg heq, visible]
  · rw [delete_if_expired_of_not_expired hexpired]

theorem visible_delete_expired (self : InMemoryStorage V) (candidates : List String) (now : ℚ) (key : String) :
    (self.delete_expired now candidates).2.visible now key = self.visible now key := by
  induction candidates generalizing self with
  | nil => rfl
  | cons first rest ih => exact (ih _).trans (visible_delete_if_expired self first now key)

theorem not_control_of_mem_oldest_keys {self : InMemoryStorage V} {key : String}
    (hmem : key ∈ self.oldest_keys) : ¬ is_control_key key := by
  simp only [oldest_keys, List.mem_map, List.mem_mergeSort, List.mem_filter] at hmem
  obtain ⟨entry, ⟨_, hspared⟩, rfl⟩ := hmem
  simpa [is_control_key] using hspared

/-- Making room never changes what is visible at a control key, whether it
    sweeps expired keys, evicts, or raises. -/
theorem visible_evict_keys_if_needed (self : InMemoryStorage V) (added : String) (now : ℚ) {key : String}
    (hcontrol : is_control_key key) :
    (self.evict_keys_if_needed added now).2.visible now key = self.visible now key := by
  have hswept := visible_delete_expired self self.values.keys now key
  unfold evict_keys_if_needed
  split_ifs with hroom
  · rfl
  · simp only
    split_ifs with hexpired hfull
    · exact hswept
    · exact hswept
    · rw [visible, entry_foldl_delete_key, if_neg, ← visible, hswept]
      intro hmem
      exact not_control_of_mem_oldest_keys (List.mem_of_mem_take hmem) hcontrol

theorem visible_delete (self : InMemoryStorage V) (deleted : String) (now : ℚ) (key : String) :
    (self.delete deleted).visible now key = if key = deleted then none else self.visible now key := by
  rw [visible, delete, entry_delete_key]
  split_ifs <;> rfl

/-- A `set` that does not raise leaves its value visible at its key, and any
    `set` leaves the control keys other than its own as they were. -/
theorem visible_set (self : InMemoryStorage V) (now : ℚ) (put : String) (value : V) (expire : Option ℤ)
    {key : String} (hcontrol : is_control_key key) :
    (self.set now put value expire).2.visible now key =
      if key = put ∧ (self.set now put value expire).1 = .ok ()
      then some ⟨value, expiry now expire⟩ else self.visible now key := by
  have hevict := visible_evict_keys_if_needed self put now hcontrol
  unfold set
  cases hvalid : validate_expire expire with
  | error e => simp
  | ok _ =>
    generalize self.evict_keys_if_needed put now = outcome at hevict
    obtain ⟨result, room⟩ := outcome
    cases result with
    | error e => simpa using hevict
    | ok _ =>
      simp only [and_true]
      rw [visible, entry_put]
      by_cases heq : key = put
      · rw [if_pos heq, if_pos heq]
        refine live_some_of_alive (Timed.alive_iff.mpr ?_)
        intro time htime
        obtain ⟨seconds, hseconds, rfl⟩ := Option.map_eq_some_iff.mp htime
        have hpos : (0 : ℚ) < seconds := by exact_mod_cast validate_expire_ok_iff.mp hvalid seconds hseconds
        exact lt_add_of_pos_right now hpos
      · rw [if_neg heq, if_neg heq]
        exact hevict

section Values

variable [PyValue V]

/-- `get` answers with the visible value, or `None`. -/
theorem get_result (self : InMemoryStorage V) (now : ℚ) (key : String) :
    (self.get now key).1 = (self.visible now key).elim PyValue.none Timed.value := by
  unfold get visible entry
  by_cases hexpired : ∃ expires_at ∈ self.expires.get? key, expires_at ≤ now
  · rw [delete_if_expired_of_expired hexpired]
    obtain ⟨expires_at, hexpires, hle⟩ := hexpired
    rw [Option.mem_def] at hexpires
    cases self.values.get? key with
    | none => rfl
    | some value =>
      rw [Option.map_some, live_some_of_not_alive (by simpa [Timed.alive, hexpires] using hle)]
      rfl
  · rw [delete_if_expired_of_not_expired hexpired]
    push Not at hexpired
    simp only
    cases self.values.get? key with
    | none => rfl
    | some value =>
      rw [Option.map_some, live_some_of_alive (Timed.alive_iff.mpr hexpired)]
      rfl

theorem visible_get (self : InMemoryStorage V) (now : ℚ) (read key : String) :
    (self.get now read).2.visible now key = self.visible now key := by
  have hswept := visible_delete_if_expired self read now key
  unfold get
  generalize self.delete_if_expired read now = outcome at hswept
  obtain ⟨deleted, swept⟩ := outcome
  cases deleted with
  | true => exact hswept
  | false =>
    simp only
    cases swept.values.get? read with
    | none => exact hswept
    | some value => exact hswept

theorem visible_incr_of_ne (self : InMemoryStorage V) (now : ℚ) {counted key : String} (expire : Option ℤ)
    (hcontrol : is_control_key key) (hne : key ≠ counted) :
    (self.incr now counted expire).2.visible now key = self.visible now key := by
  have hroom := (visible_evict_keys_if_needed (self.delete_if_expired counted now).2 counted now hcontrol).trans
    (visible_delete_if_expired self counted now key)
  unfold incr
  cases validate_expire expire with
  | error e => rfl
  | ok _ =>
    generalize (self.delete_if_expired counted now).2.evict_keys_if_needed counted now = outcome at hroom
    obtain ⟨result, room⟩ := outcome
    cases result with
    | error e => exact hroom
    | ok _ =>
      simp only
      cases (room.values.get? counted).elim (.ok 0) PyValue.as_int with
      | error e => exact hroom
      | ok previous =>
        simp only
        split_ifs with hexpire
        · rw [visible, entry_set_expiry_of_ne _ _ _ hne, entry_touch_key, entry_put_value_of_ne _ _ hne]
          exact hroom
        · rw [visible, entry_touch_key, entry_put_value_of_ne _ _ hne]
          exact hroom

end Values

/-- Counting a hit does not touch the values. -/
theorem visible_record_hit (self : InMemoryStorage V) (now : ℚ) (request_key handler_name : String)
    (rule_index : Nat) (window_seconds : ℤ) (max_hits : Option ℤ) (key : String) :
    (self.record_hit now request_key handler_name rule_index window_seconds max_hits).2.visible now key =
      self.visible now key := by
  have hevict : (self.evict_counters_if_needed).entry key = self.entry key := by
    unfold evict_counters_if_needed
    split_ifs with hroom
    · rfl
    · simp only
      split_ifs <;> rfl
  unfold record_hit counter_history
  cases hvalid : validate_max_hits max_hits with
  | error e => rfl
  | ok _ =>
    cases hget : self.request_counters.get? (request_key, handler_name, rule_index) with
    | some history => simp only [hget]; rfl
    | none => simp only [hget]; exact congrArg (live now) hevict

theorem approx_prefix_not_control {handler_name counters : String}
    (hcounters : counters = build_approx_handler_prefix handler_name) : starts_with counters "ip:" = false := by
  rw [Bool.eq_false_iff]
  intro hstarts
  have hcounter : starts_with counters APPROX_COUNTER_PREFIX = true := by
    subst hcounters
    unfold build_approx_handler_prefix
    rw [String.append_assoc, String.append_assoc]
    exact starts_with_append _ _
  rcases starts_with_comparable hstarts hcounter with h | h <;> revert h <;> decide

/-- The approximate counters of a handler are no control keys. -/
theorem visible_cleanup_handler_counters (self : InMemoryStorage V) (handler_name : String) (now : ℚ)
    {key : String} (hcontrol : is_control_key key) :
    (self.cleanup_handler_counters handler_name).visible now key = self.visible now key := by
  unfold cleanup_handler_counters
  simp only
  rw [visible, entry_foldl_delete_key, if_neg]
  · rfl
  · intro hmem
    have hprefix := (List.mem_filter.mp hmem).2
    rcases starts_with_comparable hcontrol hprefix with h | h
    · rw [starts_with_iff] at h
      have hlength := h.length_le
      unfold build_approx_handler_prefix at hlength
      simp only [String.toList_append, List.length_append] at hlength
      have hshort : "ip:".toList.length = 3 := rfl
      have hlong : APPROX_COUNTER_PREFIX.toList.length = 15 := rfl
      omega
    · rw [approx_prefix_not_control rfl] at h
      exact Bool.noConfusion h

end InMemoryStorage

end response_bandwidth_limiter.memory

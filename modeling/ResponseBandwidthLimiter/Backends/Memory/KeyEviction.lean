import ResponseBandwidthLimiter.Backends.Memory.Capacity

open collections
open response_bandwidth_limiter.base response_bandwidth_limiter.models

namespace response_bandwidth_limiter.base

variable {V : Type}

/-- The key of a `set` or `incr`. -/
def Operation.writes : Operation V → Option String
  | .set key _ _ => some key
  | .incr key _ => some key
  | _ => none

/-- The key that a call reads or writes, if it returned. -/
def Access.accessed (self : Access V) : Except PyError (Reply V) → Option String
  | .error _ => none
  | .ok _ =>
    match self.operation with
    | .get key => some key
    | operation => operation.writes

end response_bandwidth_limiter.base

namespace response_bandwidth_limiter.memory

namespace InMemoryStorage

section Deleted

variable {V : Type} {self : InMemoryStorage V} {now : ℚ} {key : String}

/-- The keys that a change of the storage took out. -/
def removed (self after : InMemoryStorage V) : List String := self.values.keys.filter (· ∉ after.values.keys)

/-- Deleting keys leaves the access times of the others. -/
theorem last_access_of_foldl_delete_key (deleted : List String)
    (hkept : key ∈ (deleted.foldl delete_key self).values.keys) :
    key ∈ self.values.keys ∧ (deleted.foldl delete_key self).last_access.get? key = self.last_access.get? key := by
  rw [foldl_delete_key] at hkept ⊢
  obtain ⟨hstored, hspared⟩ := OrderedDict.mem_keys_eraseAll.mp hkept
  exact ⟨hstored, by rw [OrderedDict.get?_eraseAll, if_neg hspared]⟩

/-- What a storage that lost some keys and got a new one lost. -/
theorem removed_of_put {deleted : List String} {after : InMemoryStorage V} {value : V} (hnodup : deleted.Nodup)
    (hstored : ∀ stored ∈ deleted, stored ∈ self.values.keys) (habsent : key ∉ self.values.keys)
    (hafter : after.values = (deleted.foldl delete_key self).values.set key value) :
    (self.removed after).Perm deleted := by
  have hsame : self.removed after = self.values.keys.filter (· ∉ (self.values.eraseAll deleted).keys) := by
    apply List.filter_congr
    intro stored hmem
    have hne : stored ≠ key := fun heq => habsent (heq ▸ hmem)
    rw [hafter, foldl_delete_key, decide_eq_decide, OrderedDict.mem_keys_set, or_iff_right hne]
  rw [hsame]
  exact OrderedDict.filter_not_mem_keys_eraseAll hnodup hstored

end Deleted

variable {V : Type} [PyValue V] {self : InMemoryStorage V} {now : ℚ} {key : String}

omit [PyValue V] in
theorem delete_if_expired_cases (self : InMemoryStorage V) (key : String) (now : ℚ) :
    (self.delete_if_expired key now).2 = self ∨
      self.Expired now key ∧ (self.delete_if_expired key now).2 = self.delete_key key := by
  by_cases hexpired : self.Expired now key
  · exact Or.inr ⟨hexpired, by rw [delete_if_expired_of_expired hexpired]⟩
  · exact Or.inl (by rw [delete_if_expired_of_not_expired hexpired])

/-- What a `set` or `incr` that returns does to the values: it drops its own key
    where `incr` finds it expired, makes room, and puts and touches the key. -/
theorem written {operation : Operation V} {reply : Reply V} (hwrites : operation.writes = some key)
    (hreturns : (self.operate now operation).1 = .ok reply) :
    ∃ start room value, (start = self ∨ self.Expired now key ∧ start = self.delete_key key) ∧
      start.evict_keys_if_needed key now = (.ok (), room) ∧
      (self.operate now operation).2.values = room.values.set key value ∧
      (self.operate now operation).2.last_access = room.last_access.set key now ∧
      (self.operate now operation).2.max_keys = room.max_keys := by
  cases operation with
  | set put value expire =>
    cases hwrites
    simp only [operate, set] at hreturns ⊢
    cases hvalid : validate_expire expire with
    | error e => simp [hvalid, Except.map] at hreturns
    | ok _ =>
      simp only [hvalid] at hreturns ⊢
      cases hevict : self.evict_keys_if_needed key now with
      | mk result room =>
        cases result with
        | error e => simp [hevict, Except.map] at hreturns
        | ok _ => exact ⟨self, room, value, Or.inl rfl, hevict, by cases expire <;> exact ⟨rfl, rfl, rfl⟩⟩
  | incr counted expire =>
    cases hwrites
    simp only [operate, incr] at hreturns ⊢
    cases hvalid : validate_expire expire with
    | error e => simp [hvalid, Except.map] at hreturns
    | ok _ =>
      simp only [hvalid] at hreturns ⊢
      cases hevict : (self.delete_if_expired key now).2.evict_keys_if_needed key now with
      | mk result room =>
        cases result with
        | error e => simp [hevict, Except.map] at hreturns
        | ok _ =>
          simp only [hevict] at hreturns ⊢
          cases hint : (room.values.get? key).elim (.ok 0) PyValue.as_int with
          | error e => simp [hint, Except.map] at hreturns
          | ok previous =>
            refine ⟨_, room, PyValue.int (previous + 1), self.delete_if_expired_cases key now, hevict, ?_⟩
            cases expire <;> exact ⟨rfl, rfl, rfl⟩
  | get read => cases hwrites
  | delete deleted => cases hwrites
  | record_hit => cases hwrites
  | cleanup_handler_counters => cases hwrites
  | cleanup_orphaned_counters => cases hwrites

/-- A write touches its key, and leaves the access times of the keys that it
    does not delete. -/
theorem Coherent.last_access_of_write (h : self.Coherent) {operation : Operation V} {reply : Reply V} {put : String}
    (hwrites : operation.writes = some put) (hreturns : (self.operate now operation).1 = .ok reply)
    (hstored : key ∈ (self.operate now operation).2.values.keys) :
    (self.operate now operation).2.last_access.get? key =
        (if put = key then some now else self.last_access.get? key) ∧ (put = key ∨ key ∈ self.values.keys) := by
  obtain ⟨start, room, value, hstart, hevict, hvalues, haccess, -⟩ := written hwrites hreturns
  have hcoherent : start.Coherent := by
    rcases hstart with rfl | ⟨-, rfl⟩
    · exact h
    · exact h.delete_keys [put]
  obtain ⟨deleted, hroom, -⟩ := hcoherent.evict_keys_deletes put now
  rw [hevict] at hroom
  rw [hvalues, OrderedDict.mem_keys_set] at hstored
  rw [haccess]
  by_cases heq : key = put
  · subst heq
    rw [OrderedDict.get?_set_self, if_pos rfl]
    exact ⟨rfl, Or.inl rfl⟩
  · rw [OrderedDict.get?_set_of_ne _ _ heq, if_neg (Ne.symm heq)]
    have hkept := hstored.resolve_left heq
    simp only at hroom
    rw [hroom] at hkept ⊢
    obtain ⟨hmem, hsame⟩ := last_access_of_foldl_delete_key _ hkept
    rcases hstart with rfl | ⟨-, rfl⟩
    · exact ⟨hsame, Or.inr hmem⟩
    · obtain ⟨hbefore, hdeleted⟩ := last_access_of_foldl_delete_key [put] hmem
      exact ⟨hsame.trans hdeleted, Or.inr hbefore⟩

/-- A read touches the key that it finds. -/
theorem last_access_of_get {read : String} (hstored : key ∈ (self.get now read).2.values.keys) :
    (self.get now read).2.last_access.get? key =
        (if read = key then some now else self.last_access.get? key) ∧ key ∈ self.values.keys := by
  unfold get at hstored ⊢
  by_cases hexpired : self.Expired now read
  · rw [delete_if_expired_of_expired hexpired] at hstored ⊢
    obtain ⟨hmem, hsame⟩ := last_access_of_foldl_delete_key [read] hstored
    have hne : read ≠ key := by
      rintro rfl
      exact (OrderedDict.get?_eq_none_iff.mp (OrderedDict.get?_erase_self self.values read)) hstored
    exact ⟨by rw [if_neg hne]; exact hsame, hmem⟩
  · rw [delete_if_expired_of_not_expired hexpired] at hstored ⊢
    simp only at hstored ⊢
    cases hvalue : self.values.get? read with
    | none =>
      simp only [hvalue] at hstored ⊢
      have hne : read ≠ key := by
        rintro rfl
        exact OrderedDict.get?_eq_none_iff.mp hvalue hstored
      exact ⟨by rw [if_neg hne], hstored⟩
    | some value =>
      simp only [hvalue] at hstored ⊢
      refine ⟨?_, hstored⟩
      rw [touch_key, OrderedDict.get?_set]
      simp only [eq_comm]

/-- The step lemma of the access times: a stored key was accessed just now, or
    was stored before and has the access time it had. -/
theorem Coherent.last_access_of_operate (h : self.Coherent) {operation : Operation V}
    (hstored : key ∈ (self.operate now operation).2.values.keys) :
    (self.operate now operation).2.last_access.get? key =
        (if Access.accessed ⟨now, operation⟩ (self.operate now operation).1 = some key then some now
          else self.last_access.get? key) ∧
      (Access.accessed ⟨now, operation⟩ (self.operate now operation).1 = some key ∨ key ∈ self.values.keys) := by
  cases hresult : (self.operate now operation).1 with
  | error e =>
    rw [h.operate_raises hresult] at hstored ⊢
    simp only [Access.accessed, reduceCtorEq, if_false, false_or]
    exact ⟨trivial, hstored⟩
  | ok reply =>
    cases operation with
    | get read =>
      obtain ⟨hsame, hmem⟩ := last_access_of_get hstored
      simp only [Access.accessed, Option.some.injEq]
      exact ⟨hsame, Or.inr hmem⟩
    | set put value expire =>
      simp only [Access.accessed, Operation.writes, Option.some.injEq]
      exact h.last_access_of_write rfl hresult hstored
    | incr counted expire =>
      simp only [Access.accessed, Operation.writes, Option.some.injEq]
      exact h.last_access_of_write rfl hresult hstored
    | delete deleted =>
      simp only [Access.accessed, Operation.writes, reduceCtorEq, if_false, false_or]
      exact (last_access_of_foldl_delete_key [deleted] hstored).symm
    | record_hit request_key handler_name rule_index window_seconds max_hits =>
      obtain ⟨request_counters, hcounters⟩ :=
        self.record_hit_counters now request_key handler_name rule_index window_seconds max_hits
      simp only [InMemoryStorage.operate, hcounters] at hstored ⊢
      simp only [Access.accessed, Operation.writes, reduceCtorEq, if_false, false_or]
      exact ⟨trivial, hstored⟩
    | cleanup_handler_counters handler_name =>
      simp only [Access.accessed, Operation.writes, reduceCtorEq, if_false, false_or]
      exact (last_access_of_foldl_delete_key _ hstored).symm
    | cleanup_orphaned_counters active_rules =>
      simp only [Access.accessed, Operation.writes, reduceCtorEq, if_false, false_or]
      exact ⟨rfl, hstored⟩

/-- The clock reading of the last call of a run that read or wrote a key, not
    counting calls that raised. -/
def last_accessed (self : InMemoryStorage V) (accesses : List (Access V)) (key : String) : Option ℚ :=
  (last_event access (fun call answer => call.accessed answer = some key) self accesses).map Access.now

/-- The run lemma: the access time of a stored key is that of its last access. -/
theorem last_access_of_run (max_keys max_counters : ℕ+) {accesses : List (Access V)}
    (hstored : key ∈ (settle access (fresh max_keys max_counters) accesses).values.keys) :
    (settle access (fresh max_keys max_counters) accesses).last_access.get? key =
      last_accessed (fresh max_keys max_counters) accesses key := by
  induction accesses using List.reverseRecOn with
  | nil => cases hstored
  | append_singleton earlier last ih =>
    rw [settle_concat] at hstored ⊢
    obtain ⟨hsame, hbefore⟩ := (coherent_of_run max_keys max_counters earlier).last_access_of_operate hstored
    rw [last_accessed, last_event_concat]
    simp only [decide_eq_true_eq]
    by_cases hlast : last.accessed ((settle access (fresh max_keys max_counters) earlier).access last).1 = some key
    · rw [if_pos hlast]
      exact hsame.trans (if_pos hlast)
    · rw [if_neg hlast]
      exact (hsame.trans (if_neg hlast)).trans (ih (hbefore.resolve_left hlast))

section Eviction

/-- The entries of the access times that an eviction may take. -/
def evictable (self : InMemoryStorage V) : List (String × ℚ) :=
  self.last_access.items.filter (fun entry => !starts_with entry.1 "ip:")

omit [PyValue V] in
theorem take_oldest_keys (self : InMemoryStorage V) (count : Nat) :
    self.oldest_keys.take count = (least Prod.snd count self.evictable).map Prod.fst := by
  rw [oldest_keys, ← List.map_take]
  rfl

omit [PyValue V] in
theorem mem_evictable {entry : String × ℚ} :
    entry ∈ self.evictable ↔ self.last_access.get? entry.1 = some entry.2 ∧ ¬ is_control_key entry.1 := by
  rw [evictable, List.mem_filter, OrderedDict.get?_eq_some_iff]
  simp [is_control_key]

omit [PyValue V] in
theorem Coherent.length_evictable (h : self.Coherent) :
    self.evictable.length = (self.values.keys.filter (fun stored => ¬ is_control_key stored)).length := by
  have hkeys : self.evictable.map Prod.fst = self.last_access.keys.filter
      (fun stored => ¬ is_control_key stored) := by
    rw [evictable, OrderedDict.keys, List.filter_map]
    congr 1
    apply List.filter_congr
    intro entry _
    simp [is_control_key]
  have hperm : self.last_access.keys.Perm self.values.keys :=
    (List.perm_ext_iff_of_nodup self.last_access.keys_nodup self.values.keys_nodup).mpr h.accessed
  rw [← List.length_map Prod.fst, hkeys, (hperm.filter _).length_eq]

variable {reply : Reply V} {call : Access V}

/-- A write of a new key makes room for it in the storage as it is. -/
theorem Coherent.written_new (h : self.Coherent) (hwrites : call.operation.writes = some key)
    (habsent : key ∉ self.values.keys) (hreturns : (self.access call).1 = .ok reply) :
    ∃ room value, self.evict_keys_if_needed key call.now = (.ok (), room) ∧
      (self.access call).2.values = room.values.set key value ∧ (self.access call).2.max_keys = self.max_keys := by
  obtain ⟨start, room, value, hstart, hevict, hvalues, -, hmax⟩ := written hwrites hreturns
  rcases hstart with rfl | ⟨hexpired, -⟩
  · obtain ⟨deleted, hroom, -⟩ := h.evict_keys_deletes key call.now
    rw [hevict, foldl_delete_key] at hroom
    exact ⟨room, value, hevict, hvalues, hmax.trans (by rw [show room = _ from hroom])⟩
  · exact absurd (h.attached.mem_of_expired hexpired) habsent

/-- In a full storage with expired entries, these are what a new key removes. -/
theorem Coherent.removed_expired (h : self.Coherent) (hwrites : call.operation.writes = some key)
    (habsent : key ∉ self.values.keys) (hfull : self.values.size = self.max_keys)
    (hreturns : (self.access call).1 = .ok reply)
    (hexpired : ∃ stored ∈ self.values.keys, self.Expired call.now stored) :
    (self.removed (self.access call).2).Perm (self.values.keys.filter (self.Expired call.now)) := by
  obtain ⟨room, value, hevict, hvalues, -⟩ := h.written_new hwrites habsent hreturns
  rw [evict_keys_of_expired habsent hfull hexpired] at hevict
  cases hevict
  exact removed_of_put (self.values.keys_nodup.filter _) (fun stored hmem => List.mem_of_mem_filter hmem) habsent
    hvalues

/-- In a full storage without, it removes the least recently accessed keys. -/
theorem Coherent.removed_oldest (h : self.Coherent) (hwrites : call.operation.writes = some key)
    (habsent : key ∉ self.values.keys) (hfull : self.values.size = self.max_keys)
    (hreturns : (self.access call).1 = .ok reply)
    (hnone : ∀ stored ∈ self.values.keys, ¬ self.Expired call.now stored) :
    (self.removed (self.access call).2).Perm (self.oldest_keys.take self.trim_by) := by
  obtain ⟨room, value, hevict, hvalues, -⟩ := h.written_new hwrites habsent hreturns
  rw [evict_keys_of_none_expired habsent hfull hnone] at hevict
  split at hevict
  · cases hevict
  · cases hevict
    have hstored : ∀ stored ∈ self.oldest_keys.take self.trim_by, stored ∈ self.values.keys :=
      fun stored hmem => (h.mem_oldest_keys.mp (List.mem_of_mem_take hmem)).1
    refine removed_of_put ?_ hstored habsent hvalues
    rw [take_oldest_keys]
    exact nodup_map_least _ ((List.filter_sublist.map Prod.fst).nodup self.last_access.nodup_keys)

omit [PyValue V] in
/-- What an eviction takes was accessed no later than what it leaves. -/
theorem last_access_le_of_take {stored other : String} {count : Nat}
    (hstored : stored ∈ self.oldest_keys.take count) (hother : other ∈ self.last_access.keys)
    (hevictable : ¬ is_control_key other) (hleft : other ∉ self.oldest_keys.take count) :
    ∃ first last, self.last_access.get? stored = some first ∧ self.last_access.get? other = some last ∧
      first ≤ last := by
  rw [take_oldest_keys] at hstored hleft
  obtain ⟨⟨_, first⟩, hleast, rfl⟩ := List.mem_map.mp hstored
  obtain ⟨last, hlast⟩ := OrderedDict.mem_keys_iff.mp hother
  have hfirst := (mem_evictable.mp (least_subset _ hleast)).1
  have hmem : (other, last) ∈ self.evictable := mem_evictable.mpr ⟨hlast, hevictable⟩
  refine ⟨first, last, hfirst, hlast, ?_⟩
  exact rank_le_of_mem_least _ hleast hmem (fun hchosen => hleft (List.mem_map.mpr ⟨_, hchosen, rfl⟩))

/-- Key eviction is least recently used and minimal. In every run, a `set` or
    `incr` of a new key that returns in a full storage removes exactly the
    expired entries if there are any. Otherwise it removes a tenth of the
    capacity, and at least one, of the keys outside the IP controls, or all of
    them if there are no more, and none of these was accessed later than one it
    keeps. The new key is stored, within the capacity. -/
theorem key_eviction_least_recent (max_keys max_counters : ℕ+) {accesses : List (Access V)}
    (hrun : settle access (fresh max_keys max_counters) accesses = self)
    (hwrites : call.operation.writes = some key) (habsent : key ∉ self.values.keys)
    (hfull : self.values.size = self.max_keys) (hreturns : (self.access call).1 = .ok reply) :
    ((∃ stored ∈ self.values.keys, self.Expired call.now stored) →
      ∀ stored, stored ∈ self.removed (self.access call).2 ↔
        stored ∈ self.values.keys ∧ self.Expired call.now stored) ∧
    ((¬ ∃ stored ∈ self.values.keys, self.Expired call.now stored) →
      (self.removed (self.access call).2).length = min (max 1 ((self.max_keys : Nat) / 10))
        (self.values.keys.filter (fun stored => ¬ is_control_key stored)).length ∧
      ∀ stored ∈ self.removed (self.access call).2, ¬ is_control_key stored ∧
        ∀ other ∈ (self.access call).2.values.keys, other ≠ key → ¬ is_control_key other →
          ∃ first last, last_accessed (fresh max_keys max_counters) accesses stored = some first ∧
            last_accessed (fresh max_keys max_counters) accesses other = some last ∧ first ≤ last) ∧
    key ∈ (self.access call).2.values.keys ∧ (self.access call).2.values.size ≤ self.max_keys := by
  subst hrun
  have h := coherent_of_run max_keys max_counters accesses
  have hnext : ((settle access (fresh max_keys max_counters) accesses).access call).2.Coherent :=
    h.operate call.now call.operation
  obtain ⟨room, value, -, hvalues, hmax⟩ := h.written_new hwrites habsent hreturns
  refine ⟨fun hexpired stored => ?_, fun hnone => ?_, ?_, ?_⟩
  · rw [(h.removed_expired hwrites habsent hfull hreturns hexpired).mem_iff, List.mem_filter, decide_eq_true_eq]
  · have hperm := h.removed_oldest hwrites habsent hfull hreturns
      (fun stored hstored hold => hnone ⟨stored, hstored, hold⟩)
    constructor
    · rw [hperm.length_eq, take_oldest_keys, List.length_map, length_least, h.length_evictable]
      rfl
    · intro stored hstored
      have htaken := hperm.mem_iff.mp hstored
      obtain ⟨hmem, hspared⟩ := h.mem_oldest_keys.mp (List.mem_of_mem_take htaken)
      refine ⟨hspared, fun other hother hne hevictable => ?_⟩
      have hbefore := (h.last_access_of_write hwrites hreturns hother).2.resolve_left (Ne.symm hne)
      have hleft : other ∉ _ := fun htaken =>
        of_decide_eq_true (List.mem_filter.mp (hperm.mem_iff.mpr htaken)).2 hother
      obtain ⟨first, last, hfirst, hlast, hle⟩ :=
        last_access_le_of_take htaken ((h.accessed other).mpr hbefore) hevictable hleft
      rw [last_access_of_run max_keys max_counters hmem] at hfirst
      rw [last_access_of_run max_keys max_counters hbefore] at hlast
      exact ⟨first, last, hfirst, hlast, hle⟩
  · rw [hvalues]
    exact OrderedDict.mem_keys_set.mpr (Or.inl rfl)
  · rw [← hmax]
    exact hnext.size_le

/-- Three values, the first of which is read again, in a storage for three. -/
def reread : List (Access PlainValue) :=
  [⟨0, .set "draft" (.int 1) none⟩, ⟨1, .set "cart" (.int 2) none⟩, ⟨2, .set "ip:block:192.0.2.1" (.str "1") none⟩,
    ⟨3, .get "draft"⟩]

theorem reread_evicts_one :
    ((settle access (fresh 3 1) reread).removed
      ((settle access (fresh 3 1) reread).access ⟨4, .set "visits" (.int 1) none⟩).2).length = 1 := by
  have hreturns : ((settle access (fresh 3 1) reread).access ⟨4, .set "visits" (.int 1) none⟩).1 = .ok .done := by
    simp only [access, operate]
    cases hset : ((settle access (fresh 3 1) reread).set 4 "visits" (.int 1) none).1 with
    | ok _ => rfl
    | error e =>
      obtain ⟨-, -, -, hcontrols⟩ := (coherent_of_run 3 1 reread).set_raises rfl hset
      exact absurd (hcontrols "draft" (by decide +kernel)).1 (by decide +kernel)
  have hwrites : (⟨4, .set "visits" (.int 1) none⟩ : Access PlainValue).operation.writes = some "visits" := rfl
  obtain ⟨-, holdest, -⟩ :=
    key_eviction_least_recent 3 1 rfl hwrites (by decide +kernel) (by decide +kernel) hreturns
  rw [(holdest (by decide +kernel)).1]
  decide +kernel

end Eviction

end InMemoryStorage

end response_bandwidth_limiter.memory

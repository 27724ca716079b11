import ResponseBandwidthLimiter.Backends.Manager.Storage
import ResponseBandwidthLimiter.Backends.Memory.Values

open collections
open response_bandwidth_limiter.base response_bandwidth_limiter.models response_bandwidth_limiter.memory

namespace response_bandwidth_limiter.manager

/-- A key that is no key of an expiry. -/
def plain (key : String) : Prop := starts_with key EXPIRY_PREFIX = false

/-- The key of a counter is no key of an expiry. -/
theorem plain_of_counter {key : String} (hcounter : starts_with key (APPROX_COUNTER_PREFIX ++ ":") = true) :
    plain key := by
  by_contra hexpiry
  rw [plain, Bool.not_eq_false] at hexpiry
  have hcomparable := starts_with_comparable hcounter hexpiry
  revert hcomparable
  decide

namespace ManagerStorage

theorem expiry_key_ne {key base : String} (hkey : plain key) : expiry_key base ≠ key := by
  intro heq
  have hprefix : starts_with (expiry_key base) EXPIRY_PREFIX = true := starts_with_append EXPIRY_PREFIX base
  rw [heq, hkey] at hprefix
  exact Bool.noConfusion hprefix

theorem expiry_key_injective {first second : String} (heq : expiry_key first = expiry_key second) :
    first = second := append_left_injective heq

theorem without_expiry_prefix_expiry_key (key : String) : without_expiry_prefix (expiry_key key) = key := by
  rw [expiry_key, without_expiry_prefix, String.toList_append, List.drop_left, String.ofList_toList]

section Entries

variable {V : Type} [PyFloat V] {self : ManagerStorage V}

/-- The value stored at a key, with its expiry. -/
def entry (self : ManagerStorage V) (key : String) : Option (Timed V ℚ) :=
  (self.shared_dict.get? key).map (fun value =>
    ⟨value, (self.shared_dict.get? (expiry_key key)).bind
      (fun expires_at => (PyFloat.as_float expires_at).toOption)⟩)

/-- Every expiry is a clock reading and belongs to a key with a value. -/
def Tidy (self : ManagerStorage V) : Prop :=
  ∀ key expires_at, self.shared_dict.get? key = some expires_at → starts_with key EXPIRY_PREFIX = true →
    ∃ base time, key = expiry_key base ∧ plain base ∧ expires_at = PyFloat.float time ∧
      self.shared_dict.get? base ≠ none

theorem Tidy.expiry (h : self.Tidy) {key : String} {expires_at : V}
    (hexpires : self.shared_dict.get? (expiry_key key) = some expires_at) :
    ∃ time, expires_at = PyFloat.float time ∧ self.shared_dict.get? key ≠ none := by
  obtain ⟨base, time, hbase, -, htime, hvalue⟩ :=
    h _ _ hexpires (starts_with_append EXPIRY_PREFIX key)
  rw [expiry_key_injective hbase]
  exact ⟨time, htime, hvalue⟩

theorem Tidy.entry_of_expiry (h : self.Tidy) {key : String} {time : ℚ}
    (hexpires : self.shared_dict.get? (expiry_key key) = some (PyFloat.float time)) :
    ∃ value, self.entry key = some ⟨value, some time⟩ := by
  obtain ⟨-, -, hvalue⟩ := h.expiry hexpires
  obtain ⟨value, hvalue⟩ := Option.ne_none_iff_exists'.mp hvalue
  exact ⟨value, by simp [entry, hvalue, hexpires, PyFloat.as_float_float, Except.toOption]⟩

omit [PyFloat V] in
theorem get?_delete_key (self : ManagerStorage V) (deleted query : String) :
    (self.delete_key deleted).shared_dict.get? query =
      if query = deleted ∨ query = expiry_key deleted then none else self.shared_dict.get? query := by
  rw [delete_key, OrderedDict.get?_erase, OrderedDict.get?_erase]
  by_cases hexpiry : query = expiry_key deleted
  · simp [hexpiry]
  · by_cases hvalue : query = deleted <;> simp [hexpiry, hvalue]

omit [PyFloat V] in
theorem get?_foldl_delete_key (self : ManagerStorage V) (stale : List String) (query : String) :
    (stale.foldl delete_key self).shared_dict.get? query =
      if query ∈ stale ∨ query ∈ stale.map expiry_key then none else self.shared_dict.get? query := by
  induction stale generalizing self with
  | nil => simp
  | cons deleted rest ih =>
    rw [List.foldl_cons, ih, get?_delete_key]
    by_cases hrest : query ∈ rest ∨ query ∈ rest.map expiry_key
    · have hremoved : query ∈ deleted :: rest ∨ query ∈ (deleted :: rest).map expiry_key :=
        hrest.imp (List.mem_cons_of_mem _) (List.mem_cons_of_mem _)
      rw [if_pos hrest, if_pos hremoved]
    · rw [if_neg hrest]
      refine if_congr ?_ rfl rfl
      rw [not_or] at hrest
      rw [List.map_cons, List.mem_cons, List.mem_cons, or_iff_left hrest.1, or_iff_left hrest.2]

theorem entry_delete_key {deleted key : String} (hdeleted : plain deleted) (hkey : plain key) :
    (self.delete_key deleted).entry key = if key = deleted then none else self.entry key := by
  by_cases heq : key = deleted
  · simp [entry, get?_delete_key, heq]
  · have hexpiry : expiry_key key ≠ expiry_key deleted := fun h => heq (expiry_key_injective h)
    simp [entry, get?_delete_key, heq, (expiry_key_ne hkey).symm, expiry_key_ne hdeleted, hexpiry]

theorem entry_foldl_delete_key {stale : List String} (hstale : ∀ deleted ∈ stale, plain deleted) {key : String}
    (hkey : plain key) :
    (stale.foldl delete_key self).entry key = if key ∈ stale then none else self.entry key := by
  induction stale generalizing self with
  | nil => rfl
  | cons deleted rest ih =>
    obtain ⟨hdeleted, hrest⟩ := List.forall_mem_cons.mp hstale
    rw [List.foldl_cons, ih hrest, entry_delete_key hdeleted hkey]
    by_cases heq : key = deleted
    · simp [heq]
    · simp [heq]

theorem Tidy.delete_key (h : self.Tidy) (deleted : String) : (self.delete_key deleted).Tidy := by
  intro key expires_at hget hprefix
  rw [get?_delete_key] at hget
  split at hget
  · cases hget
  · next hne =>
    rw [not_or] at hne
    obtain ⟨base, time, rfl, hbase, htime, hvalue⟩ := h key expires_at hget hprefix
    refine ⟨base, time, rfl, hbase, htime, ?_⟩
    have hother : base ≠ deleted := fun heq => hne.2 (heq ▸ rfl)
    rwa [get?_delete_key, if_neg (not_or.mpr ⟨hother, (expiry_key_ne hbase).symm⟩)]

/-- The check of an expiry deletes the key or does nothing. -/
theorem delete_if_expired_keeps {P : ManagerStorage V → Prop} {key : String} (h : P self)
    (hdelete : P (self.delete_key key)) (now : ℚ) : P (self.delete_if_expired key now).2 := by
  unfold ManagerStorage.delete_if_expired
  cases self.shared_dict.get? (expiry_key key) with
  | none => exact h
  | some expires_at =>
    simp only
    split
    · exact h
    · cases PyFloat.as_float expires_at with
      | error e => exact h
      | ok time =>
        simp only
        split
        · exact h
        · exact hdelete

/-- The expiry check drops an entry exactly when it can no longer be read. -/
theorem Tidy.delete_if_expired (h : self.Tidy) {candidate : String} (hcandidate : plain candidate) (now : ℚ) :
    ∃ deleted next, self.delete_if_expired candidate now = (.ok deleted, next) ∧ next.Tidy ∧
      (deleted = true → next.entry candidate = none) ∧
      ∀ key, plain key → next.entry key = if key = candidate then live now (self.entry key) else self.entry key := by
  unfold ManagerStorage.delete_if_expired
  cases hexpires : self.shared_dict.get? (expiry_key candidate) with
  | none =>
    refine ⟨false, self, rfl, h, nofun, fun key _ => ?_⟩
    split
    · next heq =>
      subst heq
      unfold entry
      cases self.shared_dict.get? key with
      | none => rfl
      | some value => exact (live_some_of_alive (by simp [Timed.alive, hexpires])).symm
    · rfl
  | some expires_at =>
    obtain ⟨time, rfl, -⟩ := h.expiry hexpires
    obtain ⟨value, hentry⟩ := h.entry_of_expiry hexpires
    simp only [PyFloat.is_none_float, Bool.false_eq_true, if_false, PyFloat.as_float_float]
    split
    · next hlater =>
      refine ⟨false, self, rfl, h, nofun, fun key _ => ?_⟩
      split
      · next heq =>
        rw [heq, hentry]
        exact (live_some_of_alive (by simpa [Timed.alive] using hlater)).symm
      · rfl
    · next hpassed =>
      refine ⟨true, self.delete_key candidate, rfl, h.delete_key candidate, fun _ => ?_, fun key hkey => ?_⟩
      · rw [entry_delete_key hcandidate hcandidate, if_pos rfl]
      · rw [entry_delete_key hcandidate hkey]
        split
        · next heq =>
          rw [heq, hentry]
          exact (live_some_of_not_alive (by simpa [Timed.alive] using hpassed)).symm
        · rfl

theorem Tidy.foldl_delete_key (h : self.Tidy) (deleted : List String) :
    (deleted.foldl ManagerStorage.delete_key self).Tidy :=
  List.foldlRecOn deleted _ h (fun _ htidy key _ => htidy.delete_key key)

/-- The keys whose expiry in a snapshot has passed. -/
def expired_keys (now : ℚ) (items : List (String × V)) : List String :=
  (items.filter (fun item => starts_with item.1 EXPIRY_PREFIX &&
    (PyFloat.as_float item.2).toOption.any (fun time => time ≤ now))).map
      (fun item => without_expiry_prefix item.1)

/-- A sweep deletes the keys whose expiries have passed, if all expiries of its
    snapshot convert. -/
theorem sweep_eq (self : ManagerStorage V) (now : ℚ) {items : List (String × V)}
    (hfloats : ∀ item ∈ items, starts_with item.1 EXPIRY_PREFIX = true → ∃ time, PyFloat.as_float item.2 = .ok time) :
    self.sweep now items = (.ok (), (expired_keys now items).foldl ManagerStorage.delete_key self) := by
  induction items generalizing self with
  | nil => rfl
  | cons item rest ih =>
    obtain ⟨candidate, expires_at⟩ := item
    have hrest := fun storage : ManagerStorage V =>
      ih storage (fun item hitem => hfloats item (List.mem_cons_of_mem _ hitem))
    unfold ManagerStorage.sweep
    split
    · next hprefix =>
      obtain ⟨time, htime⟩ := hfloats (candidate, expires_at) List.mem_cons_self hprefix
      simp only at htime
      simp only [htime]
      split
      · next hpassed =>
        rw [hrest]
        simp [expired_keys, hprefix, htime, Except.toOption, hpassed]
      · next hlater =>
        rw [hrest]
        simp [expired_keys, htime, Except.toOption, hlater]
    · next hother =>
      rw [hrest]
      simp [expired_keys, hother]

theorem Tidy.mem_expired_keys (h : self.Tidy) {now : ℚ} {key : String} :
    key ∈ expired_keys now self.shared_dict.items ↔
      ∃ time, self.shared_dict.get? (expiry_key key) = some (PyFloat.float time) ∧ time ≤ now := by
  simp only [expired_keys, List.mem_map, List.mem_filter, Bool.and_eq_true]
  constructor
  · rintro ⟨⟨candidate, expires_at⟩, ⟨hitem, hprefix, hpassed⟩, rfl⟩
    have hstored := OrderedDict.get?_eq_some_iff.mpr hitem
    obtain ⟨base, time, rfl, -, rfl, -⟩ := h candidate expires_at hstored hprefix
    rw [without_expiry_prefix_expiry_key]
    exact ⟨time, hstored, by simpa [PyFloat.as_float_float, Except.toOption] using hpassed⟩
  · rintro ⟨time, hstored, hpassed⟩
    refine ⟨(expiry_key key, PyFloat.float time), ⟨OrderedDict.get?_eq_some_iff.mp hstored, ?_, ?_⟩,
      without_expiry_prefix_expiry_key key⟩
    · exact starts_with_append EXPIRY_PREFIX key
    · simpa [PyFloat.as_float_float, Except.toOption] using hpassed

theorem Tidy.plain_of_expired (h : self.Tidy) {now : ℚ} {key : String}
    (hmem : key ∈ expired_keys now self.shared_dict.items) : plain key := by
  obtain ⟨time, hstored, -⟩ := h.mem_expired_keys.mp hmem
  obtain ⟨base, -, hbase, hplain, -⟩ := h _ _ hstored (starts_with_append EXPIRY_PREFIX key)
  rwa [expiry_key_injective hbase]

theorem Tidy.sweep_eq (h : self.Tidy) (now : ℚ) :
    self.sweep now self.shared_dict.items =
      (.ok (), (expired_keys now self.shared_dict.items).foldl ManagerStorage.delete_key self) := by
  apply ManagerStorage.sweep_eq
  rintro ⟨candidate, expires_at⟩ hitem hprefix
  obtain ⟨-, time, -, -, rfl, -⟩ := h candidate expires_at (OrderedDict.get?_eq_some_iff.mpr hitem) hprefix
  exact ⟨time, PyFloat.as_float_float time⟩

/-- The sweep drops only what can no longer be read. -/
theorem Tidy.sweep (h : self.Tidy) (now : ℚ) :
    ∃ next, self.sweep now self.shared_dict.items = (.ok (), next) ∧ next.Tidy ∧
      Values.Agree plain now next.entry self.entry := by
  refine ⟨_, h.sweep_eq now, h.foldl_delete_key _, fun key hkey => ?_⟩
  rw [entry_foldl_delete_key (fun deleted hdeleted => h.plain_of_expired hdeleted) hkey]
  split
  · next hexpired =>
    obtain ⟨time, hstored, hpassed⟩ := h.mem_expired_keys.mp hexpired
    obtain ⟨value, hentry⟩ := h.entry_of_expiry hstored
    rw [hentry]
    exact (live_some_of_not_alive (by simpa [Timed.alive] using hpassed)).symm
  · rfl

theorem Tidy.cleanup_expired_eq (h : self.Tidy) (now : ℚ) :
    self.cleanup_expired now = (.ok (),
      if self.next_cleanup.any (fun next => now < next) then self
      else { (expired_keys now self.shared_dict.items).foldl ManagerStorage.delete_key self with
        next_cleanup := some (now + cleanup_interval) }) := by
  unfold ManagerStorage.cleanup_expired
  split
  · rfl
  · rw [h.sweep_eq]

/-- Whether it sweeps or skips, a clean-up changes nothing that can be read. -/
theorem Tidy.cleanup_expired (h : self.Tidy) (now : ℚ) :
    ∃ next, self.cleanup_expired now = (.ok (), next) ∧ next.Tidy ∧
      Values.Agree plain now next.entry self.entry := by
  unfold ManagerStorage.cleanup_expired
  split
  · exact ⟨self, rfl, h, fun _ _ => rfl⟩
  · obtain ⟨next, hsweep, htidy, hagree⟩ := h.sweep now
    rw [hsweep]
    exact ⟨_, rfl, htidy, hagree⟩

theorem Tidy.put_value (h : self.Tidy) {put : String} (hput : plain put) (value : V) :
    (self.put_value put value).Tidy := by
  intro key expires_at hget hprefix
  have hne : key ≠ put := by
    rintro rfl
    rw [hput] at hprefix
    exact Bool.noConfusion hprefix
  rw [ManagerStorage.put_value, OrderedDict.get?_set_of_ne _ _ hne] at hget
  obtain ⟨base, time, hkey, hbase, htime, hvalue⟩ := h key expires_at hget hprefix
  refine ⟨base, time, hkey, hbase, htime, ?_⟩
  rw [ManagerStorage.put_value, OrderedDict.get?_set]
  split
  · exact Option.some_ne_none _
  · exact hvalue

theorem Tidy.set_expiry (h : self.Tidy) {put : String} (hput : plain put) (hvalue : self.shared_dict.get? put ≠ none)
    (now : ℚ) (expire : Option ℤ) : (self.set_expiry put now expire).Tidy := by
  intro key expires_at hget hprefix
  have hplain : ∀ base, plain base → (self.set_expiry put now expire).shared_dict.get? base =
      self.shared_dict.get? base := by
    intro base hbase
    cases expire with
    | none => exact OrderedDict.get?_erase_of_ne _ (expiry_key_ne hbase).symm
    | some seconds => exact OrderedDict.get?_set_of_ne _ _ (expiry_key_ne hbase).symm
  by_cases heq : key = expiry_key put
  · subst heq
    cases expire with
    | none => simp [ManagerStorage.set_expiry] at hget
    | some seconds =>
      simp only [ManagerStorage.set_expiry, OrderedDict.get?_set_self, Option.some.injEq] at hget
      exact ⟨put, _, rfl, hput, hget.symm, by rwa [hplain put hput]⟩
  · have hold : self.shared_dict.get? key = some expires_at := by
      cases expire with
      | none => rwa [ManagerStorage.set_expiry, OrderedDict.get?_erase_of_ne _ heq] at hget
      | some seconds => rwa [ManagerStorage.set_expiry, OrderedDict.get?_set_of_ne _ _ heq] at hget
    obtain ⟨base, time, hkey, hbase, htime, hstored⟩ := h key expires_at hold hprefix
    exact ⟨base, time, hkey, hbase, htime, by rwa [hplain base hbase]⟩

/-- Where expiries belong to values, a counted entry keeps its expiry. -/
theorem Tidy.entry_put_value (h : self.Tidy) {put : String} (hput : plain put) (value : V) (key : String) :
    (self.put_value put value).entry key =
      if key = put then some ⟨value, (self.entry put).bind Timed.expires_at⟩ else self.entry key := by
  unfold entry ManagerStorage.put_value
  rw [OrderedDict.get?_set_of_ne _ _ (expiry_key_ne hput)]
  by_cases heq : key = put
  · subst heq
    rw [if_pos rfl, OrderedDict.get?_set_self, Option.map_some]
    cases hexpires : self.shared_dict.get? (expiry_key key) with
    | none => cases self.shared_dict.get? key <;> rfl
    | some expires_at =>
      obtain ⟨time, rfl, hvalue⟩ := h.expiry hexpires
      obtain ⟨stored, hvalue⟩ := Option.ne_none_iff_exists'.mp hvalue
      rw [hvalue]
      rfl
  · rw [if_neg heq, OrderedDict.get?_set_of_ne _ _ heq]

/-- Writing a value and its expiry determines the entry of that key. -/
theorem entry_put {put key : String} (hput : plain put) (hkey : plain key) (value : V) (now : ℚ)
    (expire : Option ℤ) :
    ((self.put_value put value).set_expiry put now expire).entry key =
      if key = put then some ⟨value, expire.map (fun seconds : ℤ => now + seconds)⟩ else self.entry key := by
  by_cases heq : key = put
  · subst heq
    cases expire <;>
      simp [entry, set_expiry, put_value, OrderedDict.get?_set, OrderedDict.get?_erase,
        (expiry_key_ne hkey).symm, PyFloat.as_float_float, Except.toOption]
  · have hexpiry : expiry_key key ≠ expiry_key put := fun h => heq (expiry_key_injective h)
    cases expire <;>
      simp [entry, set_expiry, put_value, OrderedDict.get?_set, OrderedDict.get?_erase, heq, hexpiry,
        (expiry_key_ne hkey).symm, expiry_key_ne hput]

end Entries

section Refinement

variable {V : Type} [PyFloat V] {self : ManagerStorage V}

/-- The storage answers an operation as an expiring map with its entries does. -/
def Refines (self : ManagerStorage V) (time now : ℚ) (operation : Operation V) : Prop :=
  (self.operate time now operation).1 = (Values.operate self.entry now operation).1 ∧
    Values.Agree plain now (self.operate time now operation).2.entry (Values.operate self.entry now operation).2 ∧
    (self.operate time now operation).2.Tidy

theorem Tidy.get (h : self.Tidy) (time now : ℚ) {read : String} (hread : plain read) :
    self.Refines time now (.get read) := by
  obtain ⟨deleted, next, hcheck, htidy, hdeleted, hentry⟩ := h.delete_if_expired hread now
  have hlive : live now (self.entry read) = next.entry read := by rw [hentry read hread, if_pos rfl]
  have hagree : Values.Agree plain now next.entry self.entry := by
    intro key hkey
    rw [hentry key hkey]
    split
    · exact live_live_of_le (le_refl now) _
    · rfl
  simp only [Refines, ManagerStorage.operate, ManagerStorage.get, hcheck, Values.operate, hlive]
  cases deleted with
  | true =>
    rw [hdeleted rfl]
    exact ⟨rfl, hagree, htidy⟩
  | false =>
    refine ⟨?_, hagree, htidy⟩
    simp only [entry]
    cases next.shared_dict.get? read <;> rfl

theorem Tidy.set (h : self.Tidy) (time now : ℚ) {put : String} (hput : plain put) (value : V)
    (expire : Option ℤ) : self.Refines time now (.set put value expire) := by
  obtain ⟨swept, hsweep, htidy, hagree⟩ := h.cleanup_expired now
  simp only [Refines, ManagerStorage.operate, ManagerStorage.set, hsweep, Values.operate]
  cases validate_expire expire with
  | error e => exact ⟨rfl, fun _ _ => rfl, h⟩
  | ok _ =>
    refine ⟨rfl, fun key hkey => ?_, (htidy.put_value hput value).set_expiry hput ?_ now expire⟩
    · simp only [entry_put hput hkey, Function.update_apply]
      split
      · rfl
      · exact hagree key hkey
    · simp [ManagerStorage.put_value]

theorem Tidy.incr (h : self.Tidy) (time now : ℚ) {counted : String} (hcounted : plain counted)
    (expire : Option ℤ) : self.Refines time now (.incr counted expire) := by
  obtain ⟨swept, hsweep, hswept, hagree⟩ := h.cleanup_expired now
  obtain ⟨deleted, next, hcheck, htidy, -, hentry⟩ := hswept.delete_if_expired hcounted now
  have hlive : live now (self.entry counted) = next.entry counted := by
    rw [hentry counted hcounted, if_pos rfl, hagree counted hcounted]
  have hvalue : next.shared_dict.get? counted = (next.entry counted).map Timed.value := by
    simp [entry, Function.comp_def]
  have hvisible : Values.Agree plain now next.entry self.entry := by
    intro key hkey
    rw [hentry key hkey, ← hagree key hkey]
    split
    · exact live_live_of_le (le_refl now) _
    · rfl
  simp only [Refines, ManagerStorage.operate, ManagerStorage.incr, hsweep, hcheck, Values.operate, hvalue, hlive]
  cases validate_expire expire with
  | error e => exact ⟨rfl, fun _ _ => rfl, h⟩
  | ok _ =>
    cases ((next.entry counted).map Timed.value).elim (.ok 0) PyValue.as_int with
    | error e => exact ⟨rfl, hvisible, htidy⟩
    | ok previous =>
      have hput := htidy.put_value hcounted (PyValue.int (previous + 1))
      refine ⟨rfl, fun key hkey => ?_, ?_⟩
      · cases expire with
        | none =>
          simp only [Option.isSome_none, Bool.false_eq_true, if_false, htidy.entry_put_value hcounted,
            Function.update_apply]
          split
          · rfl
          · exact hvisible key hkey
        | some seconds =>
          simp only [Option.isSome_some, if_true, entry_put hcounted hkey, Function.update_apply]
          split
          · rfl
          · exact hvisible key hkey
      · simp only
        split
        · refine hput.set_expiry hcounted ?_ now expire
          simp [ManagerStorage.put_value]
        · exact hput

/-- Every value operation on a plain key is that of an expiring map. -/
theorem Tidy.operate (h : self.Tidy) (time now : ℚ) {operation : Operation V} {key : String}
    (hkey : operation.key = some key) (hplain : plain key) : self.Refines time now operation := by
  cases operation with
  | get read =>
    cases hkey
    exact h.get time now hplain
  | set put value expire =>
    cases hkey
    exact h.set time now hplain value expire
  | incr counted expire =>
    cases hkey
    exact h.incr time now hplain expire
  | delete deleted =>
    cases hkey
    refine ⟨rfl, fun query hquery => ?_, h.delete_key key⟩
    change live now ((self.delete_key key).entry query) = live now (Function.update self.entry key none query)
    rw [entry_delete_key hplain hquery, Function.update_apply]
  | record_hit => cases hkey
  | cleanup_handler_counters => cases hkey
  | cleanup_orphaned_counters => cases hkey

end Refinement

section Runs

variable {V : Type} [PyFloat V]

/-- One access of a run. The value operations read the storage's clock alone. -/
def access (self : ManagerStorage V) (access : Access V) : Except PyError (Reply V) × ManagerStorage V :=
  self.operate access.now access.now access.operation

/-- On plain keys the storage is an expiring map, wherever its sweeps fall. -/
theorem outputs_access {accesses : List (Access V)}
    (hmono : accesses.Pairwise (fun first second => first.now ≤ second.now))
    (hkeys : ∀ access ∈ accesses, ∃ key, access.operation.key = some key ∧ plain key) :
    outputs access init accesses = outputs Values.perform .empty accesses := by
  refine Values.outputs_eq_perform plain entry (fun _ => Tidy) nofun
    (fun _ _ => rfl) hmono hkeys ?_
  rintro before access rest hsplit storage htidy
  obtain ⟨key, hkey, hplain⟩ := hkeys access (by simp [hsplit])
  exact htidy.operate access.now access.now hkey hplain

/-- A run of value operations on plain keys, no more of them than the in-memory
    storage has room for, answers and raises the same on both storages. -/
theorem map_same_as_memory (max_keys max_counters : ℕ+) {accesses : List (Access V)}
    (hmono : accesses.Pairwise (fun first second => first.now ≤ second.now))
    (hkeys : ∀ access ∈ accesses, ∃ key, access.operation.key = some key ∧ plain key)
    (hroom : (accesses.filterMap (fun access => access.operation.key)).dedup.length ≤ max_keys) :
    outputs access init accesses = outputs InMemoryStorage.access (.fresh max_keys max_counters) accesses := by
  rw [outputs_access hmono hkeys, InMemoryStorage.outputs_access max_keys max_counters hmono ?_ hroom]
  exact fun access haccess => (hkeys access haccess).imp fun _ => And.left

end Runs

/-- A value that is counted up, expires, and is counted anew. -/
def short_lived : List (Access ClockedValue) :=
  [⟨0, .set "visits" (.plain (.int 5)) (some 2)⟩, ⟨1, .incr "visits" none⟩, ⟨2, .get "visits"⟩,
    ⟨2, .incr "visits" (some 1)⟩, ⟨5 / 2, .get "visits"⟩, ⟨3, .get "visits"⟩]

theorem short_lived_same :
    outputs access init short_lived = outputs InMemoryStorage.access (.fresh 10 10) short_lived := by
  refine map_same_as_memory 10 10 (by decide +kernel) ?_ (by decide +kernel)
  simp only [short_lived, List.forall_mem_cons]
  exact ⟨⟨_, rfl, rfl⟩, ⟨_, rfl, rfl⟩, ⟨_, rfl, rfl⟩, ⟨_, rfl, rfl⟩, ⟨_, rfl, rfl⟩, ⟨_, rfl, rfl⟩, nofun⟩

end ManagerStorage

end response_bandwidth_limiter.manager

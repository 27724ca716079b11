import ResponseBandwidthLimiter.Backends.Manager.Cleanup

open collections
open response_bandwidth_limiter.base response_bandwidth_limiter.models response_bandwidth_limiter.counter_keys

namespace response_bandwidth_limiter.manager

variable {V : Type}

namespace Call

/-- A `set` or an `incr` whose expiry does not pass its check. -/
def Refused (call : Call V) : Prop :=
  match call.operation with
  | .set _ _ expire => validate_expire expire ≠ .ok ()
  | .incr _ expire => validate_expire expire ≠ .ok ()
  | _ => False

/-- A call that goes on to write, by itself or in a hit. -/
def Writes (call : Call V) : Prop := call.puts ≠ none ∧ ¬ call.Refused

end Call

namespace ManagerStorage

variable [PyFloat V] {self before after : ManagerStorage V} {now : ℚ} {key : String}

/-- Every expiry record is later than a bound. -/
def Outlasts (self : ManagerStorage V) (bound : ℚ) : Prop :=
  ∀ record expires_at, self.shared_dict.get? record = some expires_at → starts_with record EXPIRY_PREFIX = true →
    ∃ time, PyFloat.as_float expires_at = .ok time ∧ bound < time

theorem Outlasts.mono {first second : ℚ} (h : self.Outlasts second) (hle : first ≤ second) : self.Outlasts first := by
  intro record expires_at hstored hprefix
  obtain ⟨time, htime, hlater⟩ := h record expires_at hstored hprefix
  exact ⟨time, htime, lt_of_le_of_lt hle hlater⟩

section Changes

/-- What an operation does between two sweeps: it adds no record that has passed
    already. -/
structure Follows (now : ℚ) (before after : ManagerStorage V) : Prop where
  next_cleanup_eq : after.next_cleanup = before.next_cleanup
  outlasts : ∀ bound ≤ now, before.Outlasts bound → after.Outlasts bound

theorem Follows.refl (now : ℚ) (self : ManagerStorage V) : Follows now self self := ⟨rfl, fun _ _ h => h⟩

theorem Follows.trans {middle : ManagerStorage V} (h : Follows now before middle) (hnext : Follows now middle after) :
    Follows now before after :=
  ⟨hnext.next_cleanup_eq.trans h.next_cleanup_eq,
    fun bound hbound houtlasts => hnext.outlasts bound hbound (h.outlasts bound hbound houtlasts)⟩

theorem follows_delete_key (self : ManagerStorage V) (deleted : String) (now : ℚ) :
    Follows now self (self.delete_key deleted) := by
  refine ⟨rfl, fun bound _ houtlasts record expires_at hstored hprefix => ?_⟩
  rw [get?_delete_key] at hstored
  split at hstored
  · cases hstored
  · exact houtlasts record expires_at hstored hprefix

theorem follows_foldl_delete_key (self : ManagerStorage V) (deleted : List String) (now : ℚ) :
    Follows now self (deleted.foldl delete_key self) := by
  apply List.foldlRecOn deleted _ (Follows.refl now self)
  intro storage hfollows key _
  exact hfollows.trans (storage.follows_delete_key key now)

theorem follows_delete_if_expired (self : ManagerStorage V) (candidate : String) (now : ℚ) :
    Follows now self (self.delete_if_expired candidate now).2 := by
  apply delete_if_expired_keeps
  · exact .refl now self
  · exact self.follows_delete_key candidate now

theorem follows_put_value (self : ManagerStorage V) (hkey : plain key) (value : V) (now : ℚ) :
    Follows now self (self.put_value key value) := by
  refine ⟨rfl, fun bound _ houtlasts record expires_at hstored hprefix => ?_⟩
  have hne : record ≠ key := by
    rintro rfl
    rw [hkey] at hprefix
    exact Bool.noConfusion hprefix
  rw [put_value, OrderedDict.get?_set_of_ne _ _ hne] at hstored
  exact houtlasts record expires_at hstored hprefix

/-- A new record is later than the clock. -/
theorem follows_set_expiry (self : ManagerStorage V) (key : String) (now : ℚ) {expire : Option ℤ}
    (hvalid : validate_expire expire = .ok ()) : Follows now self (self.set_expiry key now expire) := by
  cases expire with
  | none =>
    refine ⟨rfl, fun bound _ houtlasts record expires_at hstored hprefix => ?_⟩
    rw [set_expiry, OrderedDict.get?_erase] at hstored
    split at hstored
    · cases hstored
    · exact houtlasts record expires_at hstored hprefix
  | some seconds =>
    refine ⟨rfl, fun bound hbound houtlasts record expires_at hstored hprefix => ?_⟩
    rw [set_expiry, OrderedDict.get?_set] at hstored
    split at hstored
    · cases hstored
      have hpos : (0 : ℚ) < seconds := by exact_mod_cast validate_expire_ok_iff.mp hvalid seconds rfl
      exact ⟨now + seconds, PyFloat.as_float_float _, by linarith⟩
    · exact houtlasts record expires_at hstored hprefix

theorem follows_get (self : ManagerStorage V) (now : ℚ) (read : String) : Follows now self (self.get now read).2 := by
  have hcheck := self.follows_delete_if_expired read now
  unfold get
  split
  · next hraised => rwa [hraised] at hcheck
  · next hdeleted => rwa [hdeleted] at hcheck
  · next hkept => rwa [hkept] at hcheck

/-- After its sweep a write only checks, counts and stores. -/
theorem Tidy.follows_set (h : self.Tidy) (now : ℚ) (hkey : plain key) (value : V) {expire : Option ℤ}
    (hvalid : validate_expire expire = .ok ()) :
    Follows now (self.cleanup_expired now).2 (self.set now key value expire).2 := by
  simp only [ManagerStorage.set, hvalid, h.cleanup_expired_eq now]
  exact (follows_put_value _ hkey value now).trans (follows_set_expiry _ key now hvalid)

theorem Tidy.follows_incr (h : self.Tidy) (now : ℚ) (hkey : plain key) {expire : Option ℤ}
    (hvalid : validate_expire expire = .ok ()) :
    Follows now (self.cleanup_expired now).2 (self.incr now key expire).2 := by
  simp only [ManagerStorage.incr, hvalid, h.cleanup_expired_eq now]
  generalize (if self.next_cleanup.any (fun next => now < next) then self else _) = swept
  have hcheck := swept.follows_delete_if_expired key now
  split
  · next hraised => rwa [hraised] at hcheck
  · next hchecked =>
    rw [hchecked] at hcheck
    split
    · exact hcheck
    · next previous _ =>
      have hput := hcheck.trans (follows_put_value _ hkey (PyValue.int (previous + 1)) now)
      simp only
      split
      · exact hput.trans (follows_set_expiry _ key now hvalid)
      · exact hput

end Changes

section Steps

variable {call : Call V}

theorem record_hit_snd (self : ManagerStorage V) (time now : ℚ) (request_key handler_name : String) (rule_index : Nat)
    (window_seconds : ℤ) (max_hits : Option ℤ) :
    (self.record_hit time now request_key handler_name rule_index window_seconds max_hits).2 =
      (self.incr now (build_approx_counter_key request_key handler_name rule_index (bucket_of time window_seconds))
        (some (max 1 (window_seconds * 2)))).2 := by
  simp only [record_hit, approx_record_hit]
  split
  · next hincr => rw [hincr]
  · next hincr => rw [hincr]

theorem Tidy.perform (h : self.Tidy) (hplain : ∀ key ∈ call.operation.key, plain key) : (self.perform call).2.Tidy := by
  obtain ⟨time, now, operation⟩ := call
  cases operation with
  | get read => exact (h.operate time now rfl (hplain read rfl)).2.2
  | set put value expire => exact (h.operate time now rfl (hplain put rfl)).2.2
  | incr counted expire => exact (h.operate time now rfl (hplain counted rfl)).2.2
  | delete deleted => exact h.delete_key deleted
  | record_hit request_key handler_name rule_index window_seconds max_hits =>
    simp only [ManagerStorage.perform, ManagerStorage.operate, record_hit_snd]
    exact (h.incr time now (plain_of_counter (starts_with_approx_counter_key _ _ _ _)) _).2.2
  | cleanup_handler_counters handler_name => exact h.foldl_delete_key _
  | cleanup_orphaned_counters active_rules => exact h.foldl_delete_key _

/-- A refused call raises before it looks at the storage. -/
theorem perform_of_refused (self : ManagerStorage V) (hrefused : call.Refused) : (self.perform call).2 = self := by
  obtain ⟨time, now, operation⟩ := call
  cases operation with
  | set put value expire =>
    cases hcheck : validate_expire expire with
    | ok _ => exact absurd hcheck hrefused
    | error e => simp only [ManagerStorage.perform, operate, set, hcheck]
  | incr counted expire =>
    cases hcheck : validate_expire expire with
    | ok _ => exact absurd hcheck hrefused
    | error e => simp only [ManagerStorage.perform, operate, incr, hcheck]
  | _ => exact hrefused.elim

/-- A call that writes sweeps first. Every other call only takes records out. -/
theorem Tidy.follows_perform (h : self.Tidy) (hplain : ∀ key ∈ call.operation.key, plain key) :
    (call.Writes → Follows call.now (self.cleanup_expired call.now).2 (self.perform call).2) ∧
      (¬ call.Writes → Follows call.now self (self.perform call).2) := by
  by_cases hrefused : call.Refused
  · rw [self.perform_of_refused hrefused]
    exact ⟨fun hwrites => absurd hrefused hwrites.2, fun _ => .refl call.now self⟩
  obtain ⟨time, now, operation⟩ := call
  cases operation with
  | get read => exact ⟨fun hwrites => absurd rfl hwrites.1, fun _ => self.follows_get now read⟩
  | set put value expire =>
    refine ⟨fun _ => h.follows_set now (hplain put rfl) value (not_not.mp hrefused), fun hreads => ?_⟩
    exact absurd ⟨Option.some_ne_none put, hrefused⟩ hreads
  | incr counted expire =>
    refine ⟨fun _ => h.follows_incr now (hplain counted rfl) (not_not.mp hrefused), fun hreads => ?_⟩
    exact absurd ⟨Option.some_ne_none counted, hrefused⟩ hreads
  | delete deleted => exact ⟨fun hwrites => absurd rfl hwrites.1, fun _ => self.follows_delete_key deleted now⟩
  | record_hit request_key handler_name rule_index window_seconds max_hits =>
    refine ⟨fun _ => ?_, fun hreads => absurd ⟨Option.some_ne_none _, hrefused⟩ hreads⟩
    simp only [ManagerStorage.perform, ManagerStorage.operate, record_hit_snd]
    apply h.follows_incr now (plain_of_counter (starts_with_approx_counter_key _ _ _ _))
    simp [validate_expire_ok_iff]
  | cleanup_handler_counters handler_name =>
    exact ⟨fun hwrites => absurd rfl hwrites.1, fun _ => self.follows_foldl_delete_key _ now⟩
  | cleanup_orphaned_counters active_rules =>
    exact ⟨fun hwrites => absurd rfl hwrites.1, fun _ => self.follows_foldl_delete_key _ now⟩

/-- A storage at a clock reading: every record is later than the last sweep, and
    that was in the past. -/
structure Reclaimed (storage : ManagerStorage V) (clock : ℚ) : Prop where
  tidy : storage.Tidy
  past : ∀ next ∈ storage.next_cleanup, next - cleanup_interval ≤ clock
  outlasts : ∀ next ∈ storage.next_cleanup, storage.Outlasts (next - cleanup_interval)

theorem Reclaimed.later {clock later : ℚ} (h : self.Reclaimed clock) (hle : clock ≤ later) : self.Reclaimed later :=
  ⟨h.tidy, fun next hnext => (h.past next hnext).trans hle, h.outlasts⟩

theorem Reclaimed.follows (h : before.Reclaimed now) (hfollows : Follows now before after) (htidy : after.Tidy) :
    after.Reclaimed now := by
  refine ⟨htidy, fun next hnext => ?_, fun next hnext => ?_⟩
  · rw [hfollows.next_cleanup_eq] at hnext
    exact h.past next hnext
  · rw [hfollows.next_cleanup_eq] at hnext
    exact hfollows.outlasts _ (h.past next hnext) (h.outlasts next hnext)

/-- A sweep leaves no record that has passed. -/
theorem Tidy.outlasts_sweep (h : self.Tidy) (now : ℚ) :
    ((expired_keys now self.shared_dict.items).foldl ManagerStorage.delete_key self).Outlasts now := by
  intro record expires_at hstored hprefix
  rw [get?_foldl_delete_key] at hstored
  split at hstored
  · cases hstored
  · next hkept =>
    obtain ⟨base, time, rfl, -, rfl, -⟩ := h record expires_at hstored hprefix
    refine ⟨time, PyFloat.as_float_float time, not_le.mp fun hpassed => hkept (Or.inr ?_)⟩
    exact List.mem_map_of_mem (h.mem_expired_keys.mpr ⟨time, hstored, hpassed⟩)

/-- A skipped sweep is less than a second after the last one. -/
theorem Reclaimed.cleanup_expired (h : self.Reclaimed now) :
    (self.cleanup_expired now).2.Reclaimed now ∧
      (self.cleanup_expired now).2.Outlasts (now - cleanup_interval) := by
  rw [h.tidy.cleanup_expired_eq]
  simp only
  split
  · next hskips =>
    obtain ⟨next, hnext, hless⟩ := (Option.any_eq_true _ _).mp hskips
    have hlast : now < next := of_decide_eq_true hless
    -- the records may have passed, but not longer ago than the last sweep
    exact ⟨h, (h.outlasts next hnext).mono (by linarith)⟩
  · have hswept := h.tidy.outlasts_sweep now
    have htidy := h.tidy.foldl_delete_key (expired_keys now self.shared_dict.items)
    refine ⟨⟨htidy, ?_, ?_⟩, hswept.mono (by simp [cleanup_interval])⟩
    · rintro next ⟨⟩
      simp
    · rintro next ⟨⟩
      exact hswept.mono (by simp)

/-- The step lemma. -/
theorem Reclaimed.perform (h : self.Reclaimed call.now) (hplain : ∀ key ∈ call.operation.key, plain key) :
    (self.perform call).2.Reclaimed call.now ∧
      (call.Writes → (self.perform call).2.Outlasts (call.now - cleanup_interval)) := by
  have htidy := h.tidy.perform hplain
  obtain ⟨hswept, hreads⟩ := h.tidy.follows_perform hplain
  by_cases hwrites : call.Writes
  · have hfollows := hswept hwrites
    obtain ⟨hreclaimed, houtlasts⟩ := h.cleanup_expired
    exact ⟨hreclaimed.follows hfollows htidy, fun _ => hfollows.outlasts _ (by simp [cleanup_interval]) houtlasts⟩
  · exact ⟨h.follows (hreads hwrites) htidy, fun hwrites' => absurd hwrites' hwrites⟩

end Steps

section Runs

variable {calls : List (Call V)}

theorem tidy_of_run (hplain : ∀ call ∈ calls, ∀ key ∈ call.operation.key, plain key) :
    (settle perform (init : ManagerStorage V) calls).Tidy := by
  induction calls using List.reverseRecOn with
  | nil => exact nofun
  | append_singleton earlier last ih =>
    obtain ⟨hbefore, hown⟩ := List.forall_mem_append.mp hplain
    rw [settle_concat]
    exact (ih hbefore).perform (hown last (by simp))

/-- The run lemma of the expiries. -/
theorem reclaimed_of_run (hmono : calls.Pairwise (fun first second => first.now ≤ second.now))
    (hplain : ∀ call ∈ calls, ∀ key ∈ call.operation.key, plain key) {clock : ℚ}
    (hclock : ∀ call ∈ calls, call.now ≤ clock) :
    (settle perform (init : ManagerStorage V) calls).Reclaimed clock := by
  induction calls using List.reverseRecOn generalizing clock with
  | nil => exact ⟨nofun, nofun, nofun⟩
  | append_singleton earlier last ih =>
    obtain ⟨hearlier, -, hlast⟩ := List.pairwise_append.mp hmono
    obtain ⟨hbefore, hown⟩ := List.forall_mem_append.mp hplain
    rw [settle_concat]
    have hreclaimed := ih hearlier hbefore (fun call hcall => hlast call hcall last (by simp))
    exact (hreclaimed.perform (hown last (by simp))).1.later (hclock last (by simp))

/-- Every expiry record belongs to a stored value. -/
def Owned (self : ManagerStorage V) : Prop :=
  ∀ record ∈ self.shared_dict.keys, starts_with record EXPIRY_PREFIX = true →
    ∃ key ∈ self.shared_dict.keys, plain key ∧ record = expiry_key key

theorem Tidy.owned (h : self.Tidy) : self.Owned := by
  intro record hrecord hprefix
  obtain ⟨expires_at, hstored⟩ := OrderedDict.mem_keys_iff.mp hrecord
  obtain ⟨base, -, rfl, hplain, -, hvalue⟩ := h record expires_at hstored hprefix
  exact ⟨base, OrderedDict.mem_keys_iff.mpr (Option.ne_none_iff_exists'.mp hvalue), hplain, rfl⟩

omit [PyFloat V] in
/-- Deleting plain keys leaves the other plain keys and their expiries. -/
theorem get?_foldl_of_not_mem (self : ManagerStorage V) {stale : List String}
    (hstale : ∀ deleted ∈ stale, plain deleted) (hkey : plain key) (hkept : key ∉ stale) :
    (stale.foldl delete_key self).shared_dict.get? key = self.shared_dict.get? key ∧
      (stale.foldl delete_key self).shared_dict.get? (expiry_key key) = self.shared_dict.get? (expiry_key key) := by
  constructor
  · rw [get?_foldl_delete_key, if_neg]
    rintro (hvalue | hexpiry)
    · exact hkept hvalue
    · obtain ⟨base, -, heq⟩ := List.mem_map.mp hexpiry
      exact expiry_key_ne hkey heq
  · rw [get?_foldl_delete_key, if_neg]
    rintro (hvalue | hexpiry)
    · exact expiry_key_ne (hstale _ hvalue) rfl
    · obtain ⟨base, hbase, heq⟩ := List.mem_map.mp hexpiry
      exact hkept (expiry_key_injective heq ▸ hbase)

/-- A sweep, at any time, leaves a value that has no expiry or a later one, and
    its expiry. -/
def Spares (self : ManagerStorage V) : Prop :=
  ∀ (now : ℚ) (key : String) (value : V), plain key → self.shared_dict.get? key = some value →
    (∀ expires_at, self.shared_dict.get? (expiry_key key) = some expires_at →
      ∃ time, PyFloat.as_float expires_at = .ok time ∧ now < time) →
      (self.cleanup_expired now).2.shared_dict.get? key = some value ∧
        (self.cleanup_expired now).2.shared_dict.get? (expiry_key key) = self.shared_dict.get? (expiry_key key)

theorem Tidy.spares (h : self.Tidy) : self.Spares := by
  intro now key value hkey hvalue hlater
  rw [h.cleanup_expired_eq]
  simp only
  split
  · exact ⟨hvalue, rfl⟩
  · have hkept : key ∉ expired_keys now self.shared_dict.items := by
      intro hexpired
      obtain ⟨time, hstored, hpassed⟩ := h.mem_expired_keys.mp hexpired
      obtain ⟨later, hfloat, hless⟩ := hlater _ hstored
      rw [PyFloat.as_float_float] at hfloat
      cases hfloat
      exact absurd hpassed (not_le.mpr hless)
    obtain ⟨hsame, hexpiry⟩ :=
      self.get?_foldl_of_not_mem (fun deleted hdeleted => h.plain_of_expired hdeleted) hkey hkept
    exact ⟨hsame.trans hvalue, hexpiry⟩

/-- On plain keys and at clock readings that do not go back, no expiry is left
    without its value, no sweep takes a value before its time, and no write leaves
    an expiry that has passed for a second. A refused write changes nothing. -/
theorem reclaims_without_leaks (hmono : calls.Pairwise (fun first second => first.now ≤ second.now))
    (hplain : ∀ call ∈ calls, ∀ key ∈ call.operation.key, plain key) :
    (settle perform (init : ManagerStorage V) calls).Owned ∧
      (settle perform (init : ManagerStorage V) calls).Spares ∧
      ∀ earlier call later, calls = earlier ++ call :: later →
        (call.Writes → (settle perform (init : ManagerStorage V) (earlier ++ [call])).Outlasts (call.now - 1)) ∧
        (call.Refused → settle perform (init : ManagerStorage V) (earlier ++ [call]) = settle perform init earlier) := by
  have htidy : (settle perform (init : ManagerStorage V) calls).Tidy := tidy_of_run hplain
  refine ⟨htidy.owned, htidy.spares, ?_⟩
  rintro earlier call later rfl
  obtain ⟨hearlier, -, hcall⟩ := List.pairwise_append.mp hmono
  obtain ⟨hbefore, hown⟩ := List.forall_mem_append.mp hplain
  have hreclaimed : (settle perform (init : ManagerStorage V) earlier).Reclaimed call.now :=
    reclaimed_of_run hearlier hbefore (fun other hother => hcall other hother call List.mem_cons_self)
  rw [settle_concat]
  exact ⟨(hreclaimed.perform (hown call List.mem_cons_self)).2, perform_of_refused _⟩

/-- A permanent value, hits of two windows, a value that outlives them, and a
    write after they have passed. -/
def rotated : List (Call ClockedValue) :=
  [⟨0, 0, .set "permanent" (.plain (.str "keep")) none⟩, ⟨0, 0, .record_hit "a" "handler" 0 1 none⟩,
    ⟨1, 1, .record_hit "a" "handler" 0 1 none⟩, ⟨2, 3 / 2, .set "draft" (.plain (.int 1)) (some 9)⟩,
    ⟨5, 5, .incr "visits" none⟩]

theorem rotated_reclaimed :
    (settle perform (init : ManagerStorage ClockedValue) rotated).Owned ∧
      (settle perform (init : ManagerStorage ClockedValue) rotated).Spares ∧
      (settle perform (init : ManagerStorage ClockedValue) rotated).Outlasts (5 - 1) := by
  have hplain : ∀ call ∈ rotated, ∀ key ∈ call.operation.key, plain key := by
    simp only [rotated, List.forall_mem_cons]
    exact ⟨by rintro _ ⟨⟩; rfl, nofun, nofun, by rintro _ ⟨⟩; rfl, by rintro _ ⟨⟩; rfl, nofun⟩
  obtain ⟨howned, hspares, hwrites⟩ := reclaims_without_leaks (by decide +kernel) hplain
  exact ⟨howned, hspares, (hwrites (rotated.take 4) ⟨5, 5, .incr "visits" none⟩ [] rfl).1 ⟨nofun, fun hrefused => hrefused rfl⟩⟩

end Runs

end ManagerStorage

end response_bandwidth_limiter.manager

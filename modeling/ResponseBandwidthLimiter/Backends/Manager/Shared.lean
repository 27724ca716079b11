import ResponseBandwidthLimiter.Backends.Manager.Reclaim
import ResponseBandwidthLimiter.Backends.Memory.IpControls

open collections
open response_bandwidth_limiter.base response_bandwidth_limiter.models response_bandwidth_limiter.ip_manager

namespace response_bandwidth_limiter.base

/-- What an IP manager makes of a reply of its storage. -/
def Reply.as_answer {V : Type} [PyValue V] : Reply V → Reply V
  | .value found => .answer (!PyValue.is_none found)
  | reply => reply

end response_bandwidth_limiter.base

namespace response_bandwidth_limiter.ip_manager

variable {Address V : Type} [PyValue V] (lib : IpLibrary Address)

/-- The value operation that a call on an IP manager comes to. -/
def IpOperation.value_operation : IpOperation → Except PyError (Operation V)
  | .block_ip ip duration =>
    (normalize_ip lib ip).map fun normalized_ip => .set (BLOCK_BEGINNING ++ normalized_ip) (PyValue.str "1") duration
  | .unblock_ip ip => (normalize_ip lib ip).map fun normalized_ip => .delete (BLOCK_BEGINNING ++ normalized_ip)
  | .allow_ip ip =>
    (normalize_ip lib ip).map fun normalized_ip => .set (ALLOW_BEGINNING ++ normalized_ip) (PyValue.str "1") none
  | .remove_allow ip => (normalize_ip lib ip).map fun normalized_ip => .delete (ALLOW_BEGINNING ++ normalized_ip)
  | .is_blocked ip => (normalize_ip lib ip).map fun normalized_ip => .get (BLOCK_BEGINNING ++ normalized_ip)
  | .is_allowed ip => (normalize_ip lib ip).map fun normalized_ip => .get (ALLOW_BEGINNING ++ normalized_ip)

theorem IpOperation.key_of_value_operation {lib : IpLibrary Address} {self : IpOperation} {operation : Operation V}
    (hoperation : self.value_operation lib = .ok operation) :
    ∃ (control : Control) (address : Address), operation.key = some (control.key lib address) := by
  have hread : ∀ (ip : String) (make : String → Operation V), (normalize_ip lib ip).map make = .ok operation →
      ∃ address, operation = make (lib.str address) := by
    intro ip make hmake
    cases haddress : lib.ip_address ip with
    | none => simp [normalize_ip, haddress, Except.map] at hmake
    | some address =>
      rw [normalize_ip_of_address haddress] at hmake
      cases hmake
      exact ⟨address, rfl⟩
  cases self with
  | block_ip ip duration =>
    obtain ⟨address, rfl⟩ := hread _ _ hoperation
    exact ⟨.block, address, rfl⟩
  | unblock_ip ip =>
    obtain ⟨address, rfl⟩ := hread _ _ hoperation
    exact ⟨.block, address, rfl⟩
  | allow_ip ip =>
    obtain ⟨address, rfl⟩ := hread _ _ hoperation
    exact ⟨.allow, address, rfl⟩
  | remove_allow ip =>
    obtain ⟨address, rfl⟩ := hread _ _ hoperation
    exact ⟨.allow, address, rfl⟩
  | is_blocked ip =>
    obtain ⟨address, rfl⟩ := hread _ _ hoperation
    exact ⟨.block, address, rfl⟩
  | is_allowed ip =>
    obtain ⟨address, rfl⟩ := hread _ _ hoperation
    exact ⟨.allow, address, rfl⟩

end response_bandwidth_limiter.ip_manager

namespace response_bandwidth_limiter.manager

variable {Address V : Type}

theorem plain_control_key (lib : IpLibrary Address) (control : Control) (address : Address) :
    plain (control.key lib address) := by
  by_contra hexpiry
  rw [plain, Bool.not_eq_false] at hexpiry
  have hcomparable := starts_with_comparable (control.key_starts_with lib address) hexpiry
  revert hcomparable
  decide

/-- A call on the storage itself names no key of an expiry. -/
def SparesExpiries (event : memory.Event V) : Prop :=
  ∀ operation, event = .storage operation → ∀ key ∈ operation.key, plain key

namespace ManagerStorage

variable [PyFloat V] {lib : IpLibrary Address} {self : ManagerStorage V}

/-- The storage at a clock reading, as the IP manager uses it. -/
def at_time (now : ℚ) : Storage (ManagerStorage V) V where
  get self key := self.get now key
  set self key value expire := self.set now key value expire
  delete self key := (.ok (), self.delete key)

/-- One call on the storage or on an IP manager over it. -/
def serve (lib : IpLibrary Address) (self : ManagerStorage V) (time now : ℚ) :
    memory.Event V → Except PyError (Reply V) × ManagerStorage V
  | .ip operation => manage lib (at_time now) self operation
  | .storage operation => self.operate time now operation

/-- A call on the IP manager is its value operation, or raises before. -/
theorem manage_eq (self : ManagerStorage V) (time now : ℚ) (operation : IpOperation) :
    manage lib (at_time now) self operation =
      match operation.value_operation lib with
      | .error e => (.error e, self)
      | .ok operation =>
        ((self.operate time now operation).1.map Reply.as_answer, (self.operate time now operation).2) := by
  cases operation with
  | block_ip ip duration =>
    simp only [manage, block_ip, put_control, IpOperation.value_operation]
    cases normalize_ip lib ip with
    | error e => rfl
    | ok normalized_ip =>
      simp only [at_time, operate, Except.map]
      cases (self.set now (BLOCK_BEGINNING ++ normalized_ip) (PyValue.str "1") duration).1 <;> rfl
  | unblock_ip ip =>
    simp only [manage, unblock_ip, drop_control, IpOperation.value_operation]
    cases normalize_ip lib ip <;> rfl
  | allow_ip ip =>
    simp only [manage, allow_ip, put_control, IpOperation.value_operation]
    cases normalize_ip lib ip with
    | error e => rfl
    | ok normalized_ip =>
      simp only [at_time, operate, Except.map]
      cases (self.set now (ALLOW_BEGINNING ++ normalized_ip) (PyValue.str "1") none).1 <;> rfl
  | remove_allow ip =>
    simp only [manage, remove_allow, drop_control, IpOperation.value_operation]
    cases normalize_ip lib ip <;> rfl
  | is_blocked ip =>
    simp only [manage, is_blocked, has_control, IpOperation.value_operation]
    cases normalize_ip lib ip with
    | error e => rfl
    | ok normalized_ip =>
      simp only [at_time, operate, Except.map]
      obtain ⟨result, next⟩ := self.get now (BLOCK_BEGINNING ++ normalized_ip)
      cases result <;> rfl
  | is_allowed ip =>
    simp only [manage, is_allowed, has_control, IpOperation.value_operation]
    cases normalize_ip lib ip with
    | error e => rfl
    | ok normalized_ip =>
      simp only [at_time, operate, Except.map]
      obtain ⟨result, next⟩ := self.get now (ALLOW_BEGINNING ++ normalized_ip)
      cases result <;> rfl

/-- Whether a cleanup of counters selects a key. -/
def cleaned_by (operation : Operation V) (key : String) : Bool :=
  match operation with
  | .cleanup_handler_counters handler_name => starts_with key <| build_approx_handler_prefix handler_name
  | .cleanup_orphaned_counters active_rules =>
    starts_with key (APPROX_COUNTER_PREFIX ++ ":") &&
      !(active_rules.keys.map build_approx_handler_prefix).any (fun valid => starts_with key valid)
  | _ => false

/-- A cleanup empties the entries of the keys it selects. -/
theorem entry_cleanup {stale : String → Bool}
    (hstale : ∀ key, stale key = true → starts_with key (APPROX_COUNTER_PREFIX ++ ":") = true) {key : String}
    (hkey : plain key) :
    ((self.shared_dict.keys.filter stale).foldl delete_key self).entry key =
      if stale key then none else self.entry key := by
  have hplain : ∀ deleted ∈ self.shared_dict.keys.filter stale, plain deleted :=
    fun deleted hdeleted => plain_of_counter (hstale deleted (List.mem_filter.mp hdeleted).2)
  rw [entry_foldl_delete_key hplain hkey]
  by_cases hselected : stale key = true
  · by_cases hstored : key ∈ self.shared_dict.keys
    · rw [if_pos (List.mem_filter.mpr ⟨hstored, hselected⟩), if_pos hselected]
    · rw [if_pos hselected, entry, OrderedDict.get?_eq_none_iff.mpr hstored]
      exact ite_self _
  · rw [if_neg hselected, if_neg fun hmem => hselected (List.mem_filter.mp hmem).2]

theorem entry_cleanup_handler_counters (self : ManagerStorage V) (handler_name : String) {key : String}
    (hkey : plain key) :
    (self.cleanup_handler_counters handler_name).entry key =
      if cleaned_by (V := V) (.cleanup_handler_counters handler_name) key then none else self.entry key :=
  entry_cleanup (fun _ hstarts => counter_keys.counter_of_beginning hstarts) hkey

theorem entry_cleanup_orphaned_counters (self : ManagerStorage V) (active_rules : OrderedDict String (List Rule))
    {key : String} (hkey : plain key) :
    (self.cleanup_orphaned_counters active_rules).entry key =
      if cleaned_by (V := V) (.cleanup_orphaned_counters active_rules) key then none else self.entry key :=
  entry_cleanup (fun _ hstale => ((Bool.and_eq_true _ _).mp hstale).1) hkey

/-- A hit is reported from the count of its interval. -/
theorem record_hit_fst (self : ManagerStorage V) (time now : ℚ) (request_key handler_name : String)
    (rule_index : Nat)
    (window_seconds : ℤ) (max_hits : Option ℤ) :
    (self.record_hit time now request_key handler_name rule_index window_seconds max_hits).1 =
      (self.incr now (build_approx_counter_key request_key handler_name rule_index (bucket_of time window_seconds))
        (some (max 1 (window_seconds * 2)))).1.map fun hit_count =>
          { hit_count := hit_count.toNat
            oldest_timestamp := some (bucket_of time window_seconds * window_seconds)
            current_timestamp := time
            retry_after_timestamp := none } := by
  simp only [record_hit, approx_record_hit]
  generalize self.incr now _ _ = outcome
  obtain ⟨result, next⟩ := outcome
  cases result <;> rfl

/-- Whether an operation may write or remove the value at a key. A hit counts in
    its interval of `time.time`. -/
def Touches (time : ℚ) (operation : Operation V) (key : String) : Prop :=
  match operation with
  | .record_hit request_key handler_name rule_index window_seconds _ =>
    build_approx_counter_key request_key handler_name rule_index (bucket_of time window_seconds) = key
  | operation => operation.key = some key ∨ cleaned_by operation key = true

/-- A value operation leaves what shows at another key. -/
theorem Tidy.live_operate_of_ne (h : self.Tidy) (time : ℚ) {now : ℚ} (operation : Operation V) {named key : String}
    (hnamed : operation.key = some named) (hplain : plain named) (hkey : plain key) (hne : key ≠ named) :
    live now ((self.operate time now operation).2.entry key) = live now (self.entry key) := by
  rw [(h.operate time now hnamed hplain).2.1 key hkey, Values.operate_of_ne _ _ hnamed hne]

/-- The frame of an operation: what shows at the keys that it does not touch. -/
theorem Tidy.live_operate (h : self.Tidy) {time now : ℚ} {operation : Operation V}
    (hplain : ∀ key ∈ operation.key, plain key) {key : String} (hkey : plain key)
    (huntouched : ¬ Touches time operation key) :
    live now ((self.operate time now operation).2.entry key) = live now (self.entry key) := by
  have hvalue : ∀ named, operation.key = some named → (operation.key = some key → False) →
      live now ((self.operate time now operation).2.entry key) = live now (self.entry key) := by
    intro named hnamed hother
    refine h.live_operate_of_ne time operation hnamed (hplain named hnamed) hkey ?_
    rintro rfl
    exact hother hnamed
  cases operation with
  | get read => exact hvalue read rfl fun hread => huntouched (Or.inl hread)
  | set put value expire => exact hvalue put rfl fun hput => huntouched (Or.inl hput)
  | incr counted expire => exact hvalue counted rfl fun hcounted => huntouched (Or.inl hcounted)
  | delete deleted => exact hvalue deleted rfl fun hdeleted => huntouched (Or.inl hdeleted)
  | record_hit request_key handler_name rule_index window_seconds max_hits =>
    have hcounter := counter_keys.starts_with_approx_counter_key request_key handler_name rule_index
      (bucket_of time window_seconds)
    simp only [ManagerStorage.operate, record_hit_snd]
    exact h.live_operate_of_ne time (.incr _ _) rfl (plain_of_counter hcounter) hkey (Ne.symm huntouched)
  | cleanup_handler_counters handler_name =>
    simp only [ManagerStorage.operate, entry_cleanup_handler_counters _ _ hkey]
    rw [if_neg fun hcleaned => huntouched (Or.inr hcleaned)]
  | cleanup_orphaned_counters active_rules =>
    simp only [ManagerStorage.operate, entry_cleanup_orphaned_counters _ _ hkey]
    rw [if_neg fun hcleaned => huntouched (Or.inr hcleaned)]

theorem serve_of_value_operation (self : ManagerStorage V) {time now : ℚ} {operation : IpOperation}
    {value_operation : Operation V} (hvalue : operation.value_operation lib = .ok value_operation) :
    self.serve lib time now (.ip operation) =
      ((self.operate time now value_operation).1.map Reply.as_answer,
        (self.operate time now value_operation).2) := by
  rw [serve, manage_eq self time, hvalue]

theorem serve_of_error (self : ManagerStorage V) {time now : ℚ} {operation : IpOperation} {error : PyError}
    (hvalue : operation.value_operation (V := V) lib = .error error) :
    self.serve lib time now (.ip operation) = (.error error, self) := by
  rw [serve, manage_eq self time, hvalue]

/-- Storages whose expiries belong to values, and which show the same at the
    other keys at a time. -/
structure Alike (now : ℚ) (first second : ManagerStorage V) : Prop where
  tidy : first.Tidy ∧ second.Tidy
  agree : Values.Agree plain now first.entry second.entry

section Alike

variable {now : ℚ} {first second : ManagerStorage V}

theorem Alike.later (h : Alike now first second) {later : ℚ} (hle : now ≤ later) : Alike later first second :=
  ⟨h.tidy, h.agree.later hle⟩

/-- A value operation on a plain key is answered from what shows. -/
theorem Alike.operate_value (h : Alike now first second) (time : ℚ) (operation : Operation V) {key : String}
    (hkey : operation.key = some key) (hplain : plain key) :
    (first.operate time now operation).1 = (second.operate time now operation).1 ∧
      Alike now (first.operate time now operation).2 (second.operate time now operation).2 := by
  obtain ⟨hreply, hentries, htidy⟩ := h.tidy.1.operate time now hkey hplain
  obtain ⟨hreply', hentries', htidy'⟩ := h.tidy.2.operate time now hkey hplain
  obtain ⟨hsame, hagree⟩ := Values.operate_congr h.agree hkey hplain
  refine ⟨hreply.trans (hsame.trans hreply'.symm), ⟨htidy, htidy'⟩, fun query hquery => ?_⟩
  rw [hentries query hquery, hagree query hquery, hentries' query hquery]

theorem Alike.incr (h : Alike now first second) {key : String} (hplain : plain key) (expire : Option ℤ) :
    (first.incr now key expire).1 = (second.incr now key expire).1 ∧
      Alike now (first.incr now key expire).2 (second.incr now key expire).2 := by
  obtain ⟨hreply, halike⟩ := h.operate_value now (.incr key expire) rfl hplain
  refine ⟨?_, halike⟩
  simp only [operate] at hreply
  revert hreply
  cases (first.incr now key expire).1 <;> cases (second.incr now key expire).1 <;> simp [Except.map]

/-- The cleanups of counters leave alike storages alike. -/
theorem Alike.cleaned (h : Alike now first second) {operation : Operation V}
    {cleaned cleaned' : ManagerStorage V} (htidy : cleaned.Tidy) (htidy' : cleaned'.Tidy)
    (hentry : ∀ key, plain key → cleaned.entry key = if cleaned_by operation key then none else first.entry key)
    (hentry' : ∀ key, plain key → cleaned'.entry key = if cleaned_by operation key then none else second.entry key) :
    Alike now cleaned cleaned' := by
  refine ⟨⟨htidy, htidy'⟩, fun key hkey => ?_⟩
  rw [hentry key hkey, hentry' key hkey]
  split
  · rfl
  · exact h.agree key hkey

theorem Alike.operate (h : Alike now first second) (time : ℚ) {operation : Operation V}
    (hplain : ∀ key ∈ operation.key, plain key) :
    (first.operate time now operation).1 = (second.operate time now operation).1 ∧
      Alike now (first.operate time now operation).2 (second.operate time now operation).2 := by
  cases operation with
  | get key => exact h.operate_value time _ rfl (hplain key rfl)
  | set key value expire => exact h.operate_value time _ rfl (hplain key rfl)
  | incr key expire => exact h.operate_value time _ rfl (hplain key rfl)
  | delete key => exact h.operate_value time _ rfl (hplain key rfl)
  | record_hit request_key handler_name rule_index window_seconds max_hits =>
    have hcounter := counter_keys.starts_with_approx_counter_key request_key handler_name rule_index
      (bucket_of time window_seconds)
    obtain ⟨hcount, halike⟩ := h.incr (plain_of_counter hcounter) (some (max 1 (window_seconds * 2)))
    simp only [ManagerStorage.operate, record_hit_fst, record_hit_snd, hcount]
    exact ⟨trivial, halike⟩
  | cleanup_handler_counters handler_name =>
    exact ⟨rfl, h.cleaned (h.tidy.1.foldl_delete_key _) (h.tidy.2.foldl_delete_key _)
      (fun _ => first.entry_cleanup_handler_counters handler_name)
      (fun _ => second.entry_cleanup_handler_counters handler_name)⟩
  | cleanup_orphaned_counters active_rules =>
    exact ⟨rfl, h.cleaned (h.tidy.1.foldl_delete_key _) (h.tidy.2.foldl_delete_key _)
      (fun _ => first.entry_cleanup_orphaned_counters active_rules)
      (fun _ => second.entry_cleanup_orphaned_counters active_rules)⟩

/-- A call cannot tell alike storages apart. -/
theorem Alike.serve (lib : IpLibrary Address) (h : Alike now first second) (time : ℚ) {event : memory.Event V}
    (hspares : SparesExpiries event) :
    (first.serve lib time now event).1 = (second.serve lib time now event).1 ∧
      Alike now (first.serve lib time now event).2 (second.serve lib time now event).2 := by
  cases event with
  | storage operation => exact h.operate time (hspares operation rfl)
  | ip operation =>
    cases hvalue : operation.value_operation (V := V) lib with
    | error e =>
      rw [first.serve_of_error hvalue, second.serve_of_error hvalue]
      exact ⟨rfl, h⟩
    | ok operation =>
      obtain ⟨control, address, hkey⟩ := IpOperation.key_of_value_operation hvalue
      rw [first.serve_of_value_operation hvalue, second.serve_of_value_operation hvalue]
      obtain ⟨hreply, halike⟩ := h.operate_value time _ hkey (plain_control_key lib control address)
      exact ⟨congrArg (Except.map Reply.as_answer) hreply, halike⟩

end Alike

end ManagerStorage

/-- A call that a process makes at readings of `time.time` and of the storage's
    clock, with the lock held. -/
structure ProcessCall (V : Type) where
  process : Nat
  time : ℚ
  now : ℚ
  event : memory.Event V

/-- The dictionary of a manager, and what the storage of each process keeps to
    itself. -/
structure SharedStorage (V : Type) where
  shared_dict : OrderedDict String V
  next_cleanups : Nat → Option ℚ

namespace SharedStorage

def init : SharedStorage V := ⟨.empty, fun _ => none⟩

/-- The storage of a process. -/
def storage (self : SharedStorage V) (process : Nat) : ManagerStorage V :=
  ⟨self.shared_dict, self.next_cleanups process⟩

variable [PyFloat V]

def perform (lib : IpLibrary Address) (self : SharedStorage V) (call : ProcessCall V) :
    Except PyError (Reply V) × SharedStorage V :=
  let (reply, storage) := (self.storage call.process).serve lib call.time call.now call.event
  (reply, ⟨storage.shared_dict, Function.update self.next_cleanups call.process storage.next_cleanup⟩)

end SharedStorage

/-- The same call in a single process. -/
def ManagerStorage.perform_alone [PyFloat V] (lib : IpLibrary Address) (self : ManagerStorage V)
    (call : ProcessCall V) : Except PyError (Reply V) × ManagerStorage V :=
  self.serve lib call.time call.now call.event

section Runs

variable [PyFloat V] {calls : List (ProcessCall V)}

/-- What a call leaves in the dictionary shows in the storage of every process. -/
theorem SharedStorage.perform_alike (lib : IpLibrary Address) {self : SharedStorage V}
    {alone : ManagerStorage V} {call : ProcessCall V}
    (h : ∀ process, ManagerStorage.Alike call.now (self.storage process) alone)
    (hspares : SparesExpiries call.event) :
    (self.perform lib call).1 = (alone.perform_alone lib call).1 ∧
      ∀ process, ManagerStorage.Alike call.now ((self.perform lib call).2.storage process)
        (alone.perform_alone lib call).2 := by
  obtain ⟨hreply, halike⟩ := (h call.process).serve lib call.time hspares
  -- the records of a storage do not depend on its next sweep
  exact ⟨hreply, fun process => ⟨halike.tidy, halike.agree⟩⟩

theorem SharedStorage.settle_tidy (lib : IpLibrary Address) (hspares : ∀ call ∈ calls, SparesExpiries call.event)
    (process : Nat) : ((settle (SharedStorage.perform lib) .init calls).storage process).Tidy := by
  induction calls using List.reverseRecOn generalizing process with
  | nil => exact nofun
  | append_singleton before call ih =>
    obtain ⟨hbefore, hlast⟩ := List.forall_mem_append.mp hspares
    rw [settle_concat]
    have htidy := ih hbefore call.process
    have halike : ManagerStorage.Alike call.now _ _ := ⟨⟨htidy, htidy⟩, fun _ _ => rfl⟩
    exact (halike.serve lib call.time (hlast call (by simp))).2.tidy.1

/-- A block that is made in one process and asked for in another, and counters
    that both count in. -/
def two_processes : List (ProcessCall ClockedValue) :=
  [⟨0, 60, 0, .ip (.block_ip "192.0.2.1" (some 2))⟩, ⟨1, 61, 1, .ip (.is_blocked "192.0.2.1")⟩,
    ⟨1, 61, 1, .storage (.record_hit "alice" "item" 0 60 (some 5))⟩,
    ⟨0, 62, 2, .storage (.record_hit "alice" "item" 0 60 (some 5))⟩, ⟨0, 63, 3, .ip (.is_blocked "192.0.2.1")⟩]

end Runs

end response_bandwidth_limiter.manager

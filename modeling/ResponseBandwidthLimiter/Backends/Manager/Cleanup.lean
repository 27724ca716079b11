import ResponseBandwidthLimiter.Backends.CounterKeys
import ResponseBandwidthLimiter.Backends.Manager.Values

open collections
open response_bandwidth_limiter.base response_bandwidth_limiter.models response_bandwidth_limiter.counter_keys

namespace response_bandwidth_limiter.counter_keys

/-- The key of the counter of an owner, for a rule index, a request key and a
    bucket. -/
def key_of (owner : String) (counter : Nat × String × ℤ) : String :=
  build_approx_counter_key counter.2.1 owner counter.1 counter.2.2

theorem starts_with_key_of (owner : String) (counter : Nat × String × ℤ) :
    starts_with (key_of owner counter) (APPROX_COUNTER_PREFIX ++ ":") = true :=
  starts_with_approx_counter_key _ _ _ _

/-- The name of a handler covers a counter of an owner when it is that owner, a
    part of the owner before a colon, or the owner with what stands behind it in
    the counter's key. -/
def Covers (handler_name owner : String) (counter : Nat × String × ℤ) : Prop :=
  handler_name = owner ∨ (∃ surplus, owner = join handler_name surplus) ∨
    ∃ surplus rest, handler_name = join owner surplus ∧ approx_tail counter = join surplus rest

theorem starts_with_colon_iff {text first : String} :
    starts_with text (first ++ ":") = true ↔ ∃ rest, text = join first rest := by
  constructor
  · intro hstarts
    obtain ⟨rest, hrest⟩ := starts_with_iff.mp hstarts
    refine ⟨String.ofList rest, String.toList_inj.mp ?_⟩
    rw [join, String.toList_append, String.toList_ofList, hrest]
  · rintro ⟨rest, rfl⟩
    exact starts_with_append _ _

theorem counter_of_beginning {key handler_name : String}
    (hstarts : (starts_with key <| build_approx_handler_prefix handler_name) = true) :
    starts_with key (APPROX_COUNTER_PREFIX ++ ":") = true := by
  rw [starts_with_iff] at hstarts ⊢
  have hbeginning : build_approx_handler_prefix handler_name =
      (APPROX_COUNTER_PREFIX ++ ":") ++ (handler_name ++ ":") := String.append_assoc
  rw [hbeginning, String.toList_append] at hstarts
  exact (List.prefix_append _ _).trans hstarts

/-- The keys that a handler's cleanup selects are those that its name covers. -/
theorem starts_with_handler_prefix_iff {handler_name owner : String} {counter : Nat × String × ℤ} :
    (starts_with (key_of owner counter) <| build_approx_handler_prefix handler_name) = true ↔
      Covers handler_name owner counter := by
  have hbeginning : build_approx_handler_prefix handler_name =
      (APPROX_COUNTER_PREFIX ++ ":") ++ (handler_name ++ ":") := String.append_assoc
  rw [key_of, build_approx_counter_key_eq, hbeginning, starts_with_append_append, starts_with_colon_iff]
  constructor
  · rintro ⟨rest, heq⟩
    rcases join_eq_join_iff.mp heq with ⟨rfl, -⟩ | ⟨surplus, hname, htail⟩ | ⟨surplus, howner, -⟩
    · exact Or.inl rfl
    · exact Or.inr (Or.inr ⟨surplus, rest, hname, htail⟩)
    · exact Or.inr (Or.inl ⟨surplus, howner⟩)
  · rintro (rfl | ⟨surplus, rfl⟩ | ⟨surplus, rest, rfl, htail⟩)
    · exact ⟨_, rfl⟩
    · exact ⟨_, (join_assoc _ _ _).symm⟩
    · exact ⟨rest, by rw [htail, join_assoc]⟩

end response_bandwidth_limiter.counter_keys

namespace response_bandwidth_limiter.manager

variable {V : Type}

namespace ManagerStorage

section Steps

variable {self : ManagerStorage V} {now : ℚ} {key : String}

theorem keys_delete_key_subset (self : ManagerStorage V) (deleted : String) :
    (self.delete_key deleted).shared_dict.keys ⊆ self.shared_dict.keys := by
  intro query hquery
  rw [delete_key, OrderedDict.keys_erase, OrderedDict.keys_erase] at hquery
  exact List.mem_of_mem_filter (List.mem_of_mem_filter hquery)

theorem keys_foldl_delete_key_subset (self : ManagerStorage V) (stale : List String) :
    (stale.foldl delete_key self).shared_dict.keys ⊆ self.shared_dict.keys := by
  refine List.foldlRecOn stale _
    (motive := fun storage : ManagerStorage V => storage.shared_dict.keys ⊆ self.shared_dict.keys)
    (List.Subset.refl _) ?_
  intro storage hkept deleted _
  exact List.Subset.trans (storage.keys_delete_key_subset deleted) hkept

variable [PyFloat V]

theorem keys_delete_if_expired_subset (self : ManagerStorage V) (key : String) (now : ℚ) :
    (self.delete_if_expired key now).2.shared_dict.keys ⊆ self.shared_dict.keys := by
  apply delete_if_expired_keeps (P := fun after => after.shared_dict.keys ⊆ self.shared_dict.keys)
  · exact List.Subset.refl _
  · exact self.keys_delete_key_subset key

theorem keys_sweep_subset (self : ManagerStorage V) (now : ℚ) (items : List (String × V)) :
    (self.sweep now items).2.shared_dict.keys ⊆ self.shared_dict.keys := by
  induction items generalizing self with
  | nil => exact List.Subset.refl _
  | cons item rest ih =>
    obtain ⟨candidate, expires_at⟩ := item
    unfold sweep
    split
    · cases PyFloat.as_float expires_at with
      | error e => exact List.Subset.refl _
      | ok time =>
        simp only
        split
        · exact List.Subset.trans (ih _) (self.keys_delete_key_subset _)
        · exact ih self
    · exact ih self

theorem keys_cleanup_expired_subset (self : ManagerStorage V) (now : ℚ) :
    (self.cleanup_expired now).2.shared_dict.keys ⊆ self.shared_dict.keys := by
  have hsweep := self.keys_sweep_subset now self.shared_dict.items
  unfold cleanup_expired
  split
  · exact List.Subset.refl _
  · split
    · next heq => rwa [heq] at hsweep
    · next heq => rwa [heq] at hsweep

/-- Writing a value and perhaps its expiry adds at most those two keys. -/
theorem mem_keys_set_expiry {expire : Option ℤ} {query : String}
    (hquery : query ∈ (self.set_expiry key now expire).shared_dict.keys) :
    query ∈ self.shared_dict.keys ∨ query = expiry_key key := by
  cases expire with
  | none =>
    rw [set_expiry, OrderedDict.keys_erase] at hquery
    exact Or.inl (List.mem_of_mem_filter hquery)
  | some seconds =>
    rw [set_expiry, OrderedDict.mem_keys_set] at hquery
    exact hquery.symm

omit [PyFloat V] in
theorem mem_keys_put_value {value : V} {query : String}
    (hquery : query ∈ (self.put_value key value).shared_dict.keys) :
    query ∈ self.shared_dict.keys ∨ query = key ∨ query = expiry_key key :=
  (OrderedDict.mem_keys_set.mp hquery).symm.imp_right Or.inl

theorem mem_keys_put {value : V} {expire : Option ℤ} {query : String}
    (hquery : query ∈ ((self.put_value key value).set_expiry key now expire).shared_dict.keys) :
    query ∈ self.shared_dict.keys ∨ query = key ∨ query = expiry_key key := by
  rcases mem_keys_set_expiry hquery with hkept | hexpiry
  · exact mem_keys_put_value hkept
  · exact Or.inr (Or.inr hexpiry)

/-- A key that a write added is the written one or the one of its expiry. -/
theorem mem_keys_of_incr {expire : Option ℤ} {query : String}
    (hquery : query ∈ (self.incr now key expire).2.shared_dict.keys) :
    query ∈ self.shared_dict.keys ∨
      (query = key ∨ query = expiry_key key) ∧ ∃ current, (self.incr now key expire).1 = .ok current := by
  have hswept := self.keys_cleanup_expired_subset now
  unfold incr at hquery ⊢
  cases hvalid : validate_expire expire with
  | error e =>
    rw [hvalid] at hquery
    exact Or.inl hquery
  | ok _ =>
    rw [hvalid] at hquery
    cases hcleanup : self.cleanup_expired now with
    | mk result swept =>
      rw [hcleanup] at hquery hswept
      cases result with
      | error e => exact Or.inl (hswept hquery)
      | ok _ =>
        have hchecked := swept.keys_delete_if_expired_subset key now
        simp only at hquery ⊢
        cases hcheck : swept.delete_if_expired key now with
        | mk result checked =>
          rw [hcheck] at hquery hchecked
          cases result with
          | error e => exact Or.inl (hswept (hchecked hquery))
          | ok _ =>
            simp only at hquery ⊢
            cases hcount : (checked.shared_dict.get? key).elim (.ok 0) PyValue.as_int with
            | error e =>
              rw [hcount] at hquery
              exact Or.inl (hswept (hchecked hquery))
            | ok previous =>
              rw [hcount] at hquery
              have hput : query ∈ checked.shared_dict.keys ∨ query = key ∨ query = expiry_key key := by
                simp only at hquery
                split at hquery
                · exact mem_keys_put hquery
                · exact mem_keys_put_value hquery
              exact hput.imp (fun hkept => hswept (hchecked hkept)) fun hput => ⟨hput, _, rfl⟩

theorem mem_keys_incr {seconds current : ℤ} (hcount : (self.incr now key (some seconds)).1 = .ok current) :
    key ∈ (self.incr now key (some seconds)).2.shared_dict.keys := by
  unfold incr at hcount ⊢
  split at hcount
  · cases hcount
  · split at hcount
    · cases hcount
    · split at hcount
      · cases hcount
      · split at hcount
        · cases hcount
        · next swept _ checked _ _ previous hprevious =>
          simp only [*, Option.isSome_some, if_true, set_expiry, put_value, OrderedDict.mem_keys_set, true_or, or_true]

end Steps

end ManagerStorage

/-- A call at readings of `time.time` and of the storage's clock. -/
structure Call (V : Type) where
  time : ℚ
  now : ℚ
  operation : Operation V

namespace Call

/-- The key that a call writes when it returns. -/
def puts (call : Call V) : Option String :=
  match call.operation with
  | .set key _ _ => some key
  | .incr key _ => some key
  | .record_hit request_key handler_name rule_index window_seconds _ =>
    some (build_approx_counter_key request_key handler_name rule_index (bucket_of call.time window_seconds))
  | _ => none

/-- The calls that stores are built by. Values live outside of the counters. -/
def Builds (call : Call V) : Prop :=
  match call.operation with
  | .record_hit _ handler_name _ _ _ => handler_name ≠ ""
  | .set key _ _ => starts_with key (APPROX_COUNTER_PREFIX ++ ":") = false
  | .incr key _ => starts_with key (APPROX_COUNTER_PREFIX ++ ":") = false
  | .delete key => starts_with key (APPROX_COUNTER_PREFIX ++ ":") = false
  | _ => True

/-- A call that records a hit in a counter of a handler. -/
def Records (call : Call V) (handler_name : String) (counter : Nat × String × ℤ) : Prop :=
  ∃ window_seconds max_hits, bucket_of call.time window_seconds = counter.2.2 ∧
    call.operation = .record_hit counter.2.1 handler_name counter.1 window_seconds max_hits

/-- Counters are written by hits alone. -/
theorem Builds.records {call : Call V} (h : call.Builds) {key : String} (hputs : call.puts = some key)
    (hcounter : starts_with key (APPROX_COUNTER_PREFIX ++ ":") = true) :
    ∃ owner counter, call.Records owner counter ∧
      key = build_approx_counter_key counter.2.1 owner counter.1 counter.2.2 := by
  obtain ⟨time, now, operation⟩ := call
  cases operation with
  | set put value expire =>
    cases hputs
    exact absurd hcounter (Bool.eq_false_iff.mp h)
  | incr put expire =>
    cases hputs
    exact absurd hcounter (Bool.eq_false_iff.mp h)
  | record_hit request_key handler_name rule_index window_seconds max_hits =>
    cases hputs
    exact ⟨handler_name, (rule_index, request_key, bucket_of time window_seconds),
      ⟨window_seconds, max_hits, rfl, rfl⟩, rfl⟩
  | _ => cases hputs

end Call

namespace ManagerStorage

variable [PyFloat V] {self : ManagerStorage V}

def perform (self : ManagerStorage V) (call : Call V) : Except PyError (Reply V) × ManagerStorage V :=
  self.operate call.time call.now call.operation

/-- A key is stored only if it was before, or if the call wrote it or its expiry
    and returned. -/
theorem mem_keys_of_perform {call : Call V} {query : String}
    (hquery : query ∈ (self.perform call).2.shared_dict.keys) :
    query ∈ self.shared_dict.keys ∨
      (∃ put, call.puts = some put ∧ (query = put ∨ query = expiry_key put)) ∧
        ∃ reply, (self.perform call).1 = .ok reply := by
  obtain ⟨time, now, operation⟩ := call
  cases operation with
  | get key =>
    refine Or.inl (self.keys_delete_if_expired_subset key now ?_)
    simp only [perform, operate, get] at hquery
    cases hcheck : self.delete_if_expired key now with
    | mk result checked =>
      rw [hcheck] at hquery
      cases result with
      | error e => exact hquery
      | ok deleted => cases deleted <;> exact hquery
  | set key value expire =>
    have hswept := self.keys_cleanup_expired_subset now
    simp only [perform, operate, set] at hquery ⊢
    cases hvalid : validate_expire expire with
    | error e =>
      rw [hvalid] at hquery
      exact Or.inl hquery
    | ok _ =>
      rw [hvalid] at hquery
      cases hcleanup : self.cleanup_expired now with
      | mk result swept =>
        rw [hcleanup] at hquery hswept
        cases result with
        | error e => exact Or.inl (hswept hquery)
        | ok _ =>
          exact (mem_keys_put hquery).imp (fun hkept => hswept hkept) fun hput => ⟨⟨key, rfl, hput⟩, _, rfl⟩
  | incr key expire =>
    apply (mem_keys_of_incr hquery).imp_right
    rintro ⟨hput, current, hreturns⟩
    exact ⟨⟨key, rfl, hput⟩, .count current, by simp only [perform, operate, hreturns]; rfl⟩
  | delete key => exact Or.inl (self.keys_delete_key_subset key hquery)
  | record_hit request_key handler_name rule_index window_seconds max_hits =>
    simp only [perform, operate, record_hit, approx_record_hit] at hquery ⊢
    generalize hkey : build_approx_counter_key request_key handler_name rule_index (bucket_of time window_seconds) =
      counter_key at hquery ⊢
    have hadded : query ∈ (self.incr now counter_key (some (max 1 (window_seconds * 2)))).2.shared_dict.keys → _ :=
      mem_keys_of_incr
    cases hincr : self.incr now counter_key (some (max 1 (window_seconds * 2))) with
    | mk result next =>
      rw [hincr] at hquery hadded
      cases result with
      | error e =>
        apply (hadded hquery).imp_right
        rintro ⟨-, _, hreturns⟩
        cases hreturns
      | ok hit_count =>
        exact (hadded hquery).imp_right fun hput => ⟨⟨counter_key, congrArg some hkey, hput.1⟩, _, rfl⟩
  | cleanup_handler_counters handler_name => exact Or.inl (self.keys_foldl_delete_key_subset _ hquery)
  | cleanup_orphaned_counters active_rules => exact Or.inl (self.keys_foldl_delete_key_subset _ hquery)

/-- A hit that returns leaves its counter stored. -/
theorem mem_keys_of_records {call : Call V} {owner : String} {counter : Nat × String × ℤ}
    (hrecords : call.Records owner counter) {reply : Reply V} (hreturns : (self.perform call).1 = .ok reply) :
    key_of owner counter ∈ (self.perform call).2.shared_dict.keys := by
  obtain ⟨time, now, operation⟩ := call
  obtain ⟨rule_index, request_key, bucket⟩ := counter
  obtain ⟨window_seconds, max_hits, hbucket, hoperation⟩ := hrecords
  simp only at hbucket hoperation
  subst hoperation hbucket
  simp only [perform, operate, record_hit, approx_record_hit, key_of] at hreturns ⊢
  generalize build_approx_counter_key request_key owner rule_index (bucket_of time window_seconds) =
    counter_key at hreturns ⊢
  have hstored : ∀ current, (self.incr now counter_key (some (max 1 (window_seconds * 2)))).1 = .ok current →
      counter_key ∈ (self.incr now counter_key (some (max 1 (window_seconds * 2)))).2.shared_dict.keys :=
    fun current hcount => mem_keys_incr hcount
  cases hincr : self.incr now counter_key (some (max 1 (window_seconds * 2))) with
  | mk result next =>
    rw [hincr] at hreturns hstored
    cases result with
    | error e => cases hreturns
    | ok hit_count => exact hstored hit_count rfl

/-- A call ends the counters at a key when the key is gone after it, or when the
    call is a hit that found the key missing or run out, and counts from one. -/
def Ends (self : ManagerStorage V) (call : Call V) (key : String) : Prop :=
  key ∉ (self.perform call).2.shared_dict.keys ∨
    call.puts = some key ∧ (∃ reply, (self.perform call).1 = .ok reply) ∧
      (self.delete_if_expired key call.now).2.shared_dict.get? key = none

/-- A run has recorded a hit in a counter of a handler, and the counter has not
    ended since. Two counters can have one key. -/
def Recorded (calls : List (Call V)) (owner : String) (counter : Nat × String × ℤ) : Prop :=
  ∃ earlier call later reply, calls = earlier ++ call :: later ∧ call.Records owner counter ∧
    (perform (settle perform init earlier) call).1 = .ok reply ∧
    ∀ between last rest, later = between ++ last :: rest →
      ¬ Ends (settle perform init (earlier ++ call :: between)) last (key_of owner counter)

/-- Of the recorded counters exactly those of the doomed handlers are gone, each
    with its expiry, and everything else is as before. -/
structure CleansExactly (calls : List (Call V)) (after : ManagerStorage V) (doomed : String → Prop) : Prop where
  removed : ∀ owner counter, Recorded calls owner counter → doomed owner →
    after.shared_dict.get? (key_of owner counter) = none ∧
      after.shared_dict.get? (expiry_key (key_of owner counter)) = none
  spared : ∀ owner counter, Recorded calls owner counter → ¬ doomed owner →
    after.shared_dict.get? (key_of owner counter) =
        (settle perform init calls).shared_dict.get? (key_of owner counter) ∧
      after.shared_dict.get? (expiry_key (key_of owner counter)) =
        (settle perform init calls).shared_dict.get? (expiry_key (key_of owner counter))
  untouched : ∀ query, (∀ owner counter, Recorded calls owner counter →
      query ≠ key_of owner counter ∧ query ≠ expiry_key (key_of owner counter)) →
    after.shared_dict.get? query = (settle perform init calls).shared_dict.get? query

/-- Every recorded counter that one of the names covers is a counter of one of
    them. -/
def NamesTell (calls : List (Call V)) (handler_names : List String) : Prop :=
  ∀ owner counter, Recorded calls owner counter → (∃ handler_name ∈ handler_names, Covers handler_name owner counter) →
    owner ∈ handler_names

variable {calls : List (Call V)}

theorem Recorded.hit {last : Call V} {owner : String} {counter : Nat × String × ℤ} {reply : Reply V}
    (hrecords : last.Records owner counter) (hreturns : (perform (settle perform init calls) last).1 = .ok reply) :
    Recorded (calls ++ [last]) owner counter :=
  ⟨calls, last, [], reply, rfl, hrecords, hreturns, fun between later rest hsplit => by simp at hsplit⟩

theorem Recorded.kept {owner : String} {counter : Nat × String × ℤ} (h : Recorded calls owner counter) {last : Call V}
    (hkept : ¬ Ends (settle perform init calls) last (key_of owner counter)) :
    Recorded (calls ++ [last]) owner counter := by
  obtain ⟨earlier, call, later, reply, rfl, hrecords, hreturns, hlater⟩ := h
  refine ⟨earlier, call, later ++ [last], reply, by simp, hrecords, hreturns, ?_⟩
  intro between final rest hsplit
  rcases rest.eq_nil_or_concat' with rfl | ⟨before, ending, rfl⟩
  · obtain ⟨rfl, hfinal⟩ := List.append_inj' hsplit rfl
    cases hfinal
    exact hkept
  · rw [← List.cons_append, ← List.append_assoc] at hsplit
    obtain ⟨rfl, -⟩ := List.append_inj' hsplit rfl
    exact hlater between final before rfl

/-- A recorded counter is stored. -/
theorem Recorded.mem_keys {owner : String} {counter : Nat × String × ℤ} (h : Recorded calls owner counter) :
    key_of owner counter ∈ (settle perform (init : ManagerStorage V) calls).shared_dict.keys := by
  obtain ⟨earlier, call, later, reply, rfl, hrecords, hreturns, hlater⟩ := h
  rcases later.eq_nil_or_concat' with rfl | ⟨between, last, rfl⟩
  · rw [settle_concat]
    exact mem_keys_of_records hrecords hreturns
  · have hkept := hlater between last [] rfl
    rw [Ends, not_or, not_not] at hkept
    rw [← List.cons_append, ← List.append_assoc, settle_concat]
    exact hkept.1

/-- The invariant of the counters: each stored one is recorded for a handler. -/
theorem recorded_of_stored (hbuilds : ∀ call ∈ calls, call.Builds) {key : String}
    (hstored : key ∈ (settle perform (init : ManagerStorage V) calls).shared_dict.keys)
    (hcounter : starts_with key (APPROX_COUNTER_PREFIX ++ ":") = true) :
    ∃ owner counter, key = key_of owner counter ∧ Recorded calls owner counter := by
  induction calls using List.reverseRecOn with
  | nil => cases hstored
  | append_singleton earlier last ih =>
    have hrecorded : last.puts = some key → (∃ reply, (perform (settle perform init earlier) last).1 = .ok reply) →
        ∃ owner counter, key = key_of owner counter ∧ Recorded (earlier ++ [last]) owner counter := by
      rintro hputs ⟨reply, hreturns⟩
      obtain ⟨owner, counter, hrecords, hbuilt⟩ := (hbuilds last (by simp)).records hputs hcounter
      exact ⟨owner, counter, hbuilt, .hit hrecords hreturns⟩
    rw [settle_concat] at hstored
    by_cases hrenewed : last.puts = some key ∧ ∃ reply, (perform (settle perform init earlier) last).1 = .ok reply
    · exact hrecorded hrenewed.1 hrenewed.2
    · have hbefore : key ∈ (settle perform (init : ManagerStorage V) earlier).shared_dict.keys := by
        refine (mem_keys_of_perform hstored).resolve_right ?_
        rintro ⟨⟨put, hputs, hkey⟩, hreturns⟩
        have hput : key = put := hkey.resolve_right (expiry_key_ne (plain_of_counter hcounter)).symm
        exact hrenewed ⟨hput ▸ hputs, hreturns⟩
      obtain ⟨owner, counter, rfl, howner⟩ := ih (fun call hcall => hbuilds call (List.mem_append_left _ hcall)) hbefore
      refine ⟨owner, counter, rfl, howner.kept ?_⟩
      rintro (hgone | ⟨hputs, hreturns, -⟩)
      · exact hgone hstored
      · exact hrenewed ⟨hputs, hreturns⟩

/-- A cleanup of counters is exact when it selects the recorded ones of the
    doomed handlers. -/
theorem cleansExactly_iff (hbuilds : ∀ call ∈ calls, call.Builds) {stale : List String}
    (hstored : stale ⊆ (settle perform (init : ManagerStorage V) calls).shared_dict.keys)
    (hstale : ∀ key ∈ stale, starts_with key (APPROX_COUNTER_PREFIX ++ ":") = true) {doomed : String → Prop} :
    CleansExactly calls (stale.foldl delete_key (settle perform init calls)) doomed ↔
      ∀ owner counter, Recorded calls owner counter → (doomed owner ↔ key_of owner counter ∈ stale) := by
  have hplain : ∀ owner counter, key_of owner counter ∉ stale.map expiry_key := by
    intro owner counter hexpiry
    obtain ⟨base, -, hbase⟩ := List.mem_map.mp hexpiry
    exact expiry_key_ne (plain_of_counter (starts_with_key_of owner counter)) hbase
  constructor
  · intro h owner counter hrecorded
    constructor
    · intro hdoomed
      have hnone := (h.removed owner counter hrecorded hdoomed).1
      rw [get?_foldl_delete_key] at hnone
      split at hnone
      · next hremoved => exact hremoved.resolve_right (hplain owner counter)
      · exact absurd hrecorded.mem_keys (OrderedDict.get?_eq_none_iff.mp hnone)
    · intro hselected
      by_contra hspared
      have hsame := (h.spared owner counter hrecorded hspared).1
      rw [get?_foldl_delete_key, if_pos (Or.inl hselected)] at hsame
      exact OrderedDict.get?_eq_none_iff.mp hsame.symm hrecorded.mem_keys
  · intro h
    refine ⟨fun owner counter hrecorded hdoomed => ?_, fun owner counter hrecorded hspared => ?_,
      fun query hquery => ?_⟩
    · have hselected := (h owner counter hrecorded).mp hdoomed
      rw [get?_foldl_delete_key, get?_foldl_delete_key, if_pos (Or.inl hselected),
        if_pos (Or.inr (List.mem_map_of_mem hselected))]
      exact ⟨rfl, rfl⟩
    · have hunselected := fun hselected => hspared ((h owner counter hrecorded).mpr hselected)
      rw [get?_foldl_delete_key, get?_foldl_delete_key, if_neg (not_or.mpr ⟨hunselected, hplain owner counter⟩),
        if_neg]
      · exact ⟨rfl, rfl⟩
      · rintro (hexpiry | hexpiry)
        · exact expiry_key_ne (plain_of_counter (hstale _ hexpiry)) rfl
        · obtain ⟨base, hbase, heq⟩ := List.mem_map.mp hexpiry
          exact hunselected (expiry_key_injective heq ▸ hbase)
    · rw [get?_foldl_delete_key, if_neg]
      rintro (hselected | hexpiry)
      · obtain ⟨owner, counter, rfl, hrecorded⟩ := recorded_of_stored hbuilds (hstored hselected) (hstale _ hselected)
        exact (hquery owner counter hrecorded).1 rfl
      · obtain ⟨base, hbase, rfl⟩ := List.mem_map.mp hexpiry
        obtain ⟨owner, counter, rfl, hrecorded⟩ := recorded_of_stored hbuilds (hstored hbase) (hstale _ hbase)
        exact (hquery owner counter hrecorded).2 rfl

theorem cleanup_handler_counters_exact_iff (hbuilds : ∀ call ∈ calls, call.Builds) (handler_name : String) :
    CleansExactly calls ((settle perform init calls : ManagerStorage V).cleanup_handler_counters handler_name)
        (fun owner => owner = handler_name) ↔
      NamesTell calls [handler_name] := by
  rw [cleanup_handler_counters, cleansExactly_iff hbuilds List.filter_sublist.subset
    (fun key hkey => counter_of_beginning (List.mem_filter.mp hkey).2)]
  refine forall₃_congr fun owner counter hrecorded => ?_
  simp only [List.mem_filter, and_iff_right hrecorded.mem_keys, starts_with_handler_prefix_iff, List.mem_singleton,
    exists_eq_left]
  exact ⟨fun h => h.mpr, fun h => ⟨fun howner => Or.inl howner.symm, h⟩⟩

theorem cleanup_orphaned_counters_exact_iff (hbuilds : ∀ call ∈ calls, call.Builds)
    (active_rules : OrderedDict String (List Rule)) :
    CleansExactly calls ((settle perform init calls : ManagerStorage V).cleanup_orphaned_counters active_rules)
        (fun owner => owner ∉ active_rules.keys) ↔
      NamesTell calls active_rules.keys := by
  rw [cleanup_orphaned_counters, cleansExactly_iff hbuilds List.filter_sublist.subset
    (fun key hkey => (Bool.and_eq_true_iff.mp (List.mem_filter.mp hkey).2).1)]
  refine forall₃_congr fun owner counter hrecorded => ?_
  have hselected : (!(active_rules.keys.map build_approx_handler_prefix).any
      (fun valid => starts_with (key_of owner counter) valid)) = true ↔
      ¬ ∃ name ∈ active_rules.keys, Covers name owner counter := by
    rw [Bool.not_eq_true', Bool.eq_false_iff, Ne, List.any_map, List.any_eq_true]
    simp only [Function.comp_apply, starts_with_handler_prefix_iff]
  rw [List.mem_filter, and_iff_right hrecorded.mem_keys, Bool.and_eq_true, and_iff_right (starts_with_key_of _ _),
    hselected, not_iff_not]
  exact ⟨fun h => h.mpr, fun h => ⟨fun howner => ⟨owner, howner, Or.inl rfl⟩, h⟩⟩

/-- The cleanups of counters are exact exactly when every recorded counter that a
    given name covers is a counter of a given name: the one handler's, or those
    of the active ones. -/
theorem counters_cleaned_exactly_iff (hbuilds : ∀ call ∈ calls, call.Builds) (handler_name : String)
    (active_rules : OrderedDict String (List Rule)) :
    let storage : ManagerStorage V := settle perform init calls
    (CleansExactly calls (storage.cleanup_handler_counters handler_name) (fun owner => owner = handler_name) ↔
      NamesTell calls [handler_name]) ∧
    (CleansExactly calls (storage.cleanup_orphaned_counters active_rules) (fun owner => owner ∉ active_rules.keys) ↔
      NamesTell calls active_rules.keys) :=
  ⟨cleanup_handler_counters_exact_iff hbuilds handler_name, cleanup_orphaned_counters_exact_iff hbuilds active_rules⟩

/-- Two handlers with a counter each. -/
def two_handlers (first second : String) : List (Call ClockedValue) :=
  [⟨0, 0, .record_hit "alice" first 0 60 (some 5)⟩, ⟨0, 0, .record_hit "bob" second 0 60 (some 5)⟩]

theorem two_handlers_build {first second : String} (hfirst : first ≠ "") (hsecond : second ≠ "") :
    ∀ call ∈ two_handlers first second, call.Builds := by
  simp only [two_handlers, List.forall_mem_cons]
  exact ⟨hfirst, hsecond, nofun⟩

theorem recorded_two_handlers {first second owner : String} {counter : Nat × String × ℤ}
    (h : Recorded (two_handlers first second) owner counter) :
    (owner = first ∧ counter = (0, "alice", 0)) ∨ (owner = second ∧ counter = (0, "bob", 0)) := by
  obtain ⟨earlier, call, later, reply, hcalls, hrecords, -, -⟩ := h
  obtain ⟨rule_index, request_key, bucket⟩ := counter
  have hmem : call ∈ two_handlers first second := by simp [hcalls]
  have hzero : bucket_of 0 60 = 0 := by decide +kernel
  obtain ⟨window_seconds, max_hits, hbucket, hoperation⟩ := hrecords
  simp only [two_handlers, List.mem_cons, List.not_mem_nil, or_false] at hmem
  rcases hmem with rfl | rfl
  · cases hoperation
    have hbucket_zero : bucket = 0 := hbucket.symm.trans hzero
    exact Or.inl ⟨rfl, by rw [hbucket_zero]⟩
  · cases hoperation
    have hbucket_zero : bucket = 0 := hbucket.symm.trans hzero
    exact Or.inr ⟨rfl, by rw [hbucket_zero]⟩

/-- Cleaning up after one of two handlers leaves the other's counter. -/
theorem login_cleaned_exactly :
    let storage : ManagerStorage ClockedValue := settle perform init (two_handlers "login" "report")
    CleansExactly (two_handlers "login" "report") (storage.cleanup_handler_counters "login")
      (fun owner => owner = "login") := by
  apply (counters_cleaned_exactly_iff (two_handlers_build (by decide) (by decide)) "login" .empty).1.mpr
  rintro owner counter hrecorded ⟨handler_name, hname, hcovers⟩
  rcases recorded_two_handlers hrecorded with ⟨rfl, -⟩ | ⟨rfl, rfl⟩
  · exact List.mem_singleton_self _
  · have hstarts := starts_with_handler_prefix_iff.mpr hcovers
    rw [List.mem_singleton.mp hname] at hstarts
    exact absurd hstarts (by decide)

/-- Cleaning up after a handler removes the counter of one named like a rule of
    it, and that counter outlives its own handler next to the other one. -/
theorem report_cleaned_inexactly :
    (¬ ∀ calls : List (Call ClockedValue), (∀ call ∈ calls, call.Builds) → ∀ handler_name,
      CleansExactly calls
        ((settle perform init calls : ManagerStorage ClockedValue).cleanup_handler_counters handler_name)
        (fun owner => owner = handler_name)) ∧
    ¬ ∀ calls : List (Call ClockedValue), (∀ call ∈ calls, call.Builds) → ∀ active_rules,
      CleansExactly calls
        ((settle perform init calls : ManagerStorage ClockedValue).cleanup_orphaned_counters active_rules)
        (fun owner => owner ∉ active_rules.keys) := by
  have hbuilds : ∀ call ∈ two_handlers "report" "report:0", call.Builds :=
    two_handlers_build (by decide) (by decide)
  have hreturns : ((perform (settle perform init [⟨0, 0, .record_hit "alice" "report" 0 60 (some 5)⟩] :
      ManagerStorage ClockedValue) ⟨0, 0, .record_hit "bob" "report:0" 0 60 (some 5)⟩).1.toOption).isSome = true := by
    decide +kernel
  have hrecorded : Recorded (two_handlers "report" "report:0") "report:0" (0, "bob", 0) := by
    cases hresult : (perform (settle perform init [⟨0, 0, .record_hit "alice" "report" 0 60 (some 5)⟩] :
        ManagerStorage ClockedValue) ⟨0, 0, .record_hit "bob" "report:0" 0 60 (some 5)⟩).1 with
    | error e =>
      rw [hresult] at hreturns
      cases hreturns
    | ok reply => exact .hit ⟨60, some 5, by decide +kernel, rfl⟩ hresult
  have hstored := OrderedDict.get?_eq_none_iff.not_left.mpr hrecorded.mem_keys
  constructor
  · intro hclaim
    have hkept := ((hclaim _ hbuilds "report").spared _ _ hrecorded (by decide)).1
    have hremoved : ((settle perform init (two_handlers "report" "report:0")).cleanup_handler_counters
        "report").shared_dict.get? (key_of "report:0" (0, "bob", 0)) = none := by decide +kernel
    exact hstored (hkept.symm.trans hremoved)
  · intro hclaim
    have hgone := ((hclaim _ hbuilds (OrderedDict.empty.set "report" [])).removed _ _ hrecorded (by decide)).1
    have hkept : ((settle perform init (two_handlers "report" "report:0")).cleanup_orphaned_counters
        (OrderedDict.empty.set "report" [])).shared_dict.get? (key_of "report:0" (0, "bob", 0)) ≠ none := by
      decide +kernel
    exact hkept hgone

end ManagerStorage

end response_bandwidth_limiter.manager

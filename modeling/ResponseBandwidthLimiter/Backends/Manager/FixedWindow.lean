import ResponseBandwidthLimiter.Backends.CounterKeys
import ResponseBandwidthLimiter.Backends.Manager.Values
import ResponseBandwidthLimiter.Backends.Memory.Histories
import ResponseBandwidthLimiter.Policy

open collections
open response_bandwidth_limiter.base response_bandwidth_limiter.models response_bandwidth_limiter.memory
open response_bandwidth_limiter.counter_keys response_bandwidth_limiter.policy

namespace response_bandwidth_limiter.base

/-- Whether a time is in an aligned interval. -/
def in_interval (bucket window_seconds : ℤ) (time : ℚ) : Bool :=
  (bucket * window_seconds : ℚ) ≤ time && time < (bucket + 1) * window_seconds

theorem in_interval_iff {bucket window_seconds : ℤ} {time : ℚ} :
    in_interval bucket window_seconds time = true ↔
      (bucket * window_seconds : ℚ) ≤ time ∧ time < (bucket + 1) * window_seconds := by
  simp [in_interval]

theorem bucket_of_eq_iff {window_seconds : ℤ} (hwindow : 1 ≤ window_seconds) {time : ℚ} {bucket : ℤ} :
    bucket_of time window_seconds = bucket ↔ in_interval bucket window_seconds time = true := by
  have hpos : (0 : ℚ) < window_seconds := by exact_mod_cast hwindow
  rw [bucket_of, Int.floor_eq_iff, le_div_iff₀ hpos, div_lt_iff₀ hpos, in_interval_iff]

theorem in_interval_bucket_of {window_seconds : ℤ} (hwindow : 1 ≤ window_seconds) (time : ℚ) :
    in_interval (bucket_of time window_seconds) window_seconds time = true :=
  (bucket_of_eq_iff hwindow).mp rfl

/-- Times less than a window apart are in one aligned interval or in two
    consecutive ones. -/
theorem in_interval_of_lt {window_seconds : ℤ} (hwindow : 1 ≤ window_seconds) {time last : ℚ}
    (hafter : last - window_seconds < time) (hle : time ≤ last) :
    in_interval (bucket_of last window_seconds - 1) window_seconds time = true ∨
      in_interval (bucket_of last window_seconds) window_seconds time = true := by
  obtain ⟨hfrom, hto⟩ := in_interval_iff.mp (in_interval_bucket_of hwindow last)
  rcases le_or_gt ((bucket_of last window_seconds : ℚ) * window_seconds) time with hstart | hstart
  · exact Or.inr (in_interval_iff.mpr ⟨hstart, hle.trans_lt hto⟩)
  · refine Or.inl (in_interval_iff.mpr ⟨?_, ?_⟩)
    · push_cast
      linarith
    · push_cast
      linarith

/-- A later interval begins after every time of an earlier one. -/
theorem lt_start_of_ne {bucket later_bucket window_seconds : ℤ} (hwindow : 1 ≤ window_seconds) {time later : ℚ}
    (hinterval : in_interval bucket window_seconds time = true)
    (hlater : in_interval later_bucket window_seconds later = true) (hle : time ≤ later)
    (hne : later_bucket ≠ bucket) : time < later_bucket * window_seconds := by
  have hpos : (0 : ℚ) < window_seconds := by exact_mod_cast hwindow
  obtain ⟨hfrom, hto⟩ := in_interval_iff.mp hinterval
  have hend := (in_interval_iff.mp hlater).2
  have horder : (bucket : ℚ) < later_bucket + 1 :=
    lt_of_mul_lt_mul_right ((hfrom.trans hle).trans_lt hend) hpos.le
  have hnext : (bucket + 1 : ℚ) ≤ later_bucket := by
    have : bucket < later_bucket + 1 := by exact_mod_cast horder
    exact_mod_cast (by omega : bucket + 1 ≤ later_bucket)
  exact hto.trans_le (mul_le_mul_of_nonneg_right hnext hpos.le)

/-- The retry time counted from the start of an interval is the whole number of
    seconds after which the interval is over. -/
theorem in_interval_add_iff {bucket window_seconds : ℤ} {time : ℚ}
    (hinterval : in_interval bucket window_seconds time = true) {wait : ℤ} (hwait : 0 ≤ wait) :
    in_interval bucket window_seconds (time + wait) = true ↔
      wait < retry_after_seconds (some (bucket * window_seconds)) time window_seconds := by
  obtain ⟨hfrom, hto⟩ := in_interval_iff.mp hinterval
  have hlater : (0 : ℚ) ≤ wait := by exact_mod_cast hwait
  rw [← not_le, retry_after_seconds_le_iff (by linarith), in_interval_iff]
  constructor
  · rintro ⟨-, hend⟩ hover
    linarith
  · intro hend
    exact ⟨by linarith, by linarith⟩

/-- The key of a counter for one aligned interval. -/
def build_bucket_key (counter_key : CounterKey) (bucket : ℤ) : String :=
  build_approx_counter_key counter_key.1 counter_key.2.1 counter_key.2.2 bucket

theorem build_bucket_key_injective {counter_key : CounterKey} {first second : ℤ}
    (heq : build_bucket_key counter_key first = build_bucket_key counter_key second) : first = second := by
  rw [build_bucket_key, build_bucket_key, build_approx_counter_key_eq, build_approx_counter_key_eq] at heq
  have htail := approx_tail_injective _ _ (append_left_injective (append_left_injective heq))
  exact congrArg (fun counter => counter.2.2) htail

theorem starts_with_build_bucket_key (counter_key : CounterKey) (bucket : ℤ) :
    starts_with (build_bucket_key counter_key bucket) (APPROX_COUNTER_PREFIX ++ ":") = true :=
  starts_with_approx_counter_key _ _ _ _

variable {V : Type}

/-- Whether a reply is a hit within a limit. -/
def Reply.within (count : ℤ) (reply : Except PyError (Reply V)) : Bool :=
  match reply with
  | .ok (.hit result) => result.hit_count ≤ count
  | _ => false

end response_bandwidth_limiter.base

namespace response_bandwidth_limiter.manager

theorem plain_build_bucket_key (counter_key : CounterKey) (bucket : ℤ) :
    plain (build_bucket_key counter_key bucket) :=
  plain_of_counter (starts_with_build_bucket_key counter_key bucket)

variable {V : Type}

/-- A value operation on a key that belongs neither to a counter nor to an expiry. -/
def Foreign (operation : Operation V) : Prop :=
  ∃ key, operation.key = some key ∧ plain key ∧ starts_with key (APPROX_COUNTER_PREFIX ++ ":") = false

/-- A run of calls on one counter, all with one window, among value operations on
    keys of other kinds. -/
structure OneCounter (counter_key : CounterKey) (window_seconds : ℤ) (accesses : List (Access V)) : Prop where
  ordered : accesses.Pairwise (fun first second => first.now ≤ second.now)
  each : ∀ access ∈ accesses,
    (∃ max_hits, access.operation =
      .record_hit counter_key.1 counter_key.2.1 counter_key.2.2 window_seconds max_hits) ∨
    Foreign access.operation

variable {counter_key : CounterKey} {window_seconds : ℤ} {offset : ℚ}

theorem OneCounter.before {before rest : List (Access V)}
    (hrun : OneCounter counter_key window_seconds (before ++ rest)) :
    OneCounter counter_key window_seconds before :=
  ⟨(List.pairwise_append.mp hrun.ordered).1, fun access haccess => hrun.each access (List.mem_append_left _ haccess)⟩

theorem OneCounter.concat_hit {before : List (Access V)} (hrun : OneCounter counter_key window_seconds before)
    {now : ℚ} (hnow : ∀ access ∈ before, access.now ≤ now) (max_hits : Option ℤ) :
    OneCounter counter_key window_seconds (before ++
      [⟨now, .record_hit counter_key.1 counter_key.2.1 counter_key.2.2 window_seconds max_hits⟩]) where
  ordered := List.pairwise_append.mpr ⟨hrun.ordered, List.pairwise_singleton _ _, by simpa using hnow⟩
  each access haccess := by
    rcases List.mem_append.mp haccess with hbefore | hlast
    · exact hrun.each access hbefore
    · exact Or.inl ⟨max_hits, by rw [List.mem_singleton.mp hlast]⟩

theorem OneCounter.append_foreign {before others : List (Access V)}
    (hrun : OneCounter counter_key window_seconds before)
    (hordered : others.Pairwise (fun first second => first.now ≤ second.now))
    (hforeign : ∀ access ∈ others, Foreign access.operation)
    (hlater : ∀ first ∈ before, ∀ second ∈ others, first.now ≤ second.now) :
    OneCounter counter_key window_seconds (before ++ others) where
  ordered := List.pairwise_append.mpr ⟨hrun.ordered, hordered, hlater⟩
  each access haccess := by
    rcases List.mem_append.mp haccess with hbefore | hother
    · exact hrun.each access hbefore
    · exact Or.inr (hforeign access hother)

/-- The hits of a counter in an aligned interval of `time.time`. -/
def hits_in (offset : ℚ) (counter_key : CounterKey) (window_seconds bucket : ℤ) (accesses : List (Access V)) :
    List (Access V) :=
  accesses.filter (fun access =>
    access.hits counter_key && in_interval bucket window_seconds (access.now + offset))

theorem Foreign.not_hits {access : Access V} (hforeign : Foreign access.operation) :
    access.hits counter_key = false := by
  obtain ⟨key, hkey, -, -⟩ := hforeign
  unfold Access.hits
  cases hoperation : access.operation with
  | record_hit => simp [hoperation, Operation.key] at hkey
  | _ => rfl

theorem hits_in_append_foreign (accesses : List (Access V)) {others : List (Access V)} (bucket : ℤ)
    (hforeign : ∀ access ∈ others, Foreign access.operation) :
    hits_in offset counter_key window_seconds bucket (accesses ++ others) =
      hits_in offset counter_key window_seconds bucket accesses := by
  have hnone : others.filter (fun access =>
      access.hits counter_key && in_interval bucket window_seconds (access.now + offset)) = [] := by
    rw [List.filter_eq_nil_iff]
    intro access haccess
    rw [(hforeign access haccess).not_hits]
    exact Bool.false_ne_true
  rw [hits_in, List.filter_append, hnone, List.append_nil, hits_in]

theorem hits_in_eq_nil {accesses : List (Access V)} {bucket : ℤ}
    (hpast : ∀ access ∈ accesses, access.now + offset < bucket * window_seconds) :
    hits_in offset counter_key window_seconds bucket accesses = [] := by
  rw [hits_in, List.filter_eq_nil_iff]
  intro access haccess hhits
  rw [Bool.and_eq_true, in_interval_iff] at hhits
  exact absurd hhits.2.1 (not_le.mpr (hpast access haccess))

/-- How many hits of the counter at times of a kind were within a limit. -/
def hits_within (offset : ℚ) (counter_key : CounterKey) (count : ℤ) (during : ℚ → Bool)
    (entries : List (Access V × Except PyError (Reply V))) : Nat :=
  entries.countP (fun entry =>
    (entry.1.hits counter_key && during (entry.1.now + offset)) && Reply.within count entry.2)

theorem hits_within_le_add (offset : ℚ) (counter_key : CounterKey) (count : ℤ) (during first second : ℚ → Bool)
    (h : ∀ time, during time = true → first time = true ∨ second time = true)
    (entries : List (Access V × Except PyError (Reply V))) :
    hits_within offset counter_key count during entries ≤
      hits_within offset counter_key count first entries + hits_within offset counter_key count second entries := by
  induction entries with
  | nil => rfl
  | cons entry rest ih =>
    simp only [hits_within, List.countP_cons, Bool.and_eq_true] at ih ⊢
    have hentry := h (entry.1.now + offset)
    split_ifs <;> first | omega | (exfalso; tauto)

theorem hits_in_concat_of_not (accesses : List (Access V)) {access : Access V} {bucket : ℤ}
    (hnot : (access.hits counter_key && in_interval bucket window_seconds (access.now + offset)) = false) :
    hits_in offset counter_key window_seconds bucket (accesses ++ [access]) =
      hits_in offset counter_key window_seconds bucket accesses := by
  rw [hits_in, List.filter_append, List.filter_singleton, hnot]
  exact List.append_nil _

theorem hits_in_concat (accesses : List (Access V)) {access : Access V} {bucket : ℤ}
    (hhit : access.hits counter_key = true)
    (hinterval : in_interval bucket window_seconds (access.now + offset) = true) :
    hits_in offset counter_key window_seconds bucket (accesses ++ [access]) =
      hits_in offset counter_key window_seconds bucket accesses ++ [access] := by
  rw [hits_in, List.filter_append, List.filter_singleton, hhit, hinterval]
  rfl

/-- While the interval of a hit lasts a later call finds all its hits, and none
    after it. -/
theorem hits_in_later (offset : ℚ) (hwindow : 1 ≤ window_seconds) {accesses : List (Access V)} {now : ℚ}
    (hpast : ∀ access ∈ accesses, access.now ≤ now) {operation : Operation V}
    (hcall : ({ now, operation } : Access V).hits counter_key = true) {wait : ℤ} (hwait : 0 ≤ wait) :
    hits_in offset counter_key window_seconds (bucket_of (now + offset + wait) window_seconds)
      (accesses ++ [⟨now, operation⟩]) =
        if wait < retry_after_seconds (some (bucket_of (now + offset) window_seconds * window_seconds))
          (now + offset)
          window_seconds
        then hits_in offset counter_key window_seconds (bucket_of (now + offset) window_seconds) accesses ++
          [⟨now, operation⟩]
        else [] := by
  have hinterval := in_interval_bucket_of hwindow (now + offset)
  simp only [← in_interval_add_iff hinterval hwait, ← bucket_of_eq_iff hwindow]
  split
  · next hbucket => rw [hbucket, hits_in_concat accesses hcall hinterval]
  · next hbucket =>
    have hlater : (0 : ℚ) ≤ wait := by exact_mod_cast hwait
    have hstart := lt_start_of_ne hwindow hinterval (in_interval_bucket_of hwindow _) (by linarith) hbucket
    refine hits_in_eq_nil fun access haccess => lt_of_le_of_lt ?_ hstart
    rcases List.mem_append.mp haccess with hbefore | hlast
    · exact add_le_add_left (hpast access hbefore) offset
    · rw [List.mem_singleton.mp hlast]

/-- The value operation that an access comes to. -/
def underlying (offset : ℚ) (access : Access V) : Access V :=
  match access.operation with
  | .record_hit request_key handler_name rule_index window_seconds _ =>
    { now := access.now
      operation := .incr
        (build_bucket_key (request_key, handler_name, rule_index) (bucket_of (access.now + offset) window_seconds))
        (some (max 1 (window_seconds * 2))) }
  | _ => access

theorem underlying_of_foreign {access : Access V} (hforeign : Foreign access.operation) :
    underlying offset access = access := by
  obtain ⟨key, hkey, -, -⟩ := hforeign
  unfold underlying
  cases hoperation : access.operation with
  | record_hit => simp [hoperation, Operation.key] at hkey
  | _ => rfl

theorem underlying_of_hit {access : Access V} {max_hits : Option ℤ}
    (hhit : access.operation = .record_hit counter_key.1 counter_key.2.1 counter_key.2.2 window_seconds max_hits) :
    underlying offset access =
      ⟨access.now, .incr (build_bucket_key counter_key (bucket_of (access.now + offset) window_seconds))
        (some (max 1 (window_seconds * 2)))⟩ := by
  simp only [underlying, hhit]

/-- In a run on one counter, every access comes to a value operation on a plain
    key. -/
theorem underlying_plain {accesses : List (Access V)} (hrun : OneCounter counter_key window_seconds accesses) :
    ∀ access ∈ accesses.map (underlying offset), ∃ key, access.operation.key = some key ∧ plain key := by
  intro access haccess
  obtain ⟨original, horiginal, rfl⟩ := List.mem_map.mp haccess
  rcases hrun.each original horiginal with ⟨max_hits, hhit⟩ | hforeign
  · rw [underlying_of_hit hhit]
    exact ⟨_, rfl, plain_build_bucket_key _ _⟩
  · rw [underlying_of_foreign hforeign]
    exact hforeign.imp fun _ h => ⟨h.1, h.2.1⟩

theorem underlying_now (access : Access V) : (underlying offset access).now = access.now := by
  unfold underlying
  cases access.operation <;> rfl

namespace ManagerStorage

variable [PyFloat V] {self : ManagerStorage V}

/-- One access of a run whose clocks advance together: `time.time` is ahead of
    the storage's clock by the same offset throughout. -/
def clocked (offset : ℚ) (self : ManagerStorage V) (access : Access V) :
    Except PyError (Reply V) × ManagerStorage V :=
  self.operate (access.now + offset) access.now access.operation

theorem clocked_snd (self : ManagerStorage V) (access : Access V) :
    (self.clocked offset access).2 = (self.access (underlying offset access)).2 := by
  obtain ⟨now, operation⟩ := access
  cases operation with
  | record_hit request_key handler_name rule_index window_seconds max_hits =>
    simp only [clocked, underlying, ManagerStorage.access, operate, record_hit, approx_record_hit, build_bucket_key]
    generalize self.incr now _ _ = outcome
    obtain ⟨result, next⟩ := outcome
    cases result <;> rfl
  | _ => rfl

/-- A hit answers the count of the value operation. -/
theorem clocked_fst {access : Access V} {max_hits : Option ℤ}
    (hhit : access.operation = .record_hit counter_key.1 counter_key.2.1 counter_key.2.2 window_seconds max_hits)
    {current : ℤ} (hcount : (self.access (underlying offset access)).1 = .ok (.count current)) :
    (self.clocked offset access).1 = .ok (.hit {
      hit_count := current.toNat
      oldest_timestamp := some (bucket_of (access.now + offset) window_seconds * window_seconds)
      current_timestamp := access.now + offset
      retry_after_timestamp := none }) := by
  rw [underlying_of_hit hhit] at hcount
  simp only [ManagerStorage.access, operate, build_bucket_key] at hcount
  simp only [clocked, hhit, operate, record_hit, approx_record_hit]
  revert hcount
  generalize self.incr access.now _ _ = outcome
  obtain ⟨result, next⟩ := outcome
  cases result with
  | error e => simp [Except.map]
  | ok count =>
    intro hcount
    simp only [Except.map, Except.ok.injEq, Reply.count.injEq] at hcount ⊢
    rw [hcount]

theorem settle_clocked (state : ManagerStorage V) (accesses : List (Access V)) :
    settle (clocked offset) state accesses = settle ManagerStorage.access state
      (accesses.map (underlying offset)) := by
  simp only [settle, List.foldl_map, clocked_snd]

end ManagerStorage

section Counter

variable [PyValue V]

/-- What a fixed window keeps of the hits in one interval. -/
def tally (window_seconds : ℤ) (hits : List (Access V)) : Option (Timed V ℚ) :=
  hits.getLast?.map (fun last => ⟨PyValue.int hits.length, some (last.now + (max 1 (window_seconds * 2) : ℤ))⟩)

theorem tally_count (hits : List (Access V)) :
    ((tally window_seconds hits).map Timed.value).elim (.ok 0) PyValue.as_int = .ok (hits.length : ℤ) := by
  unfold tally
  cases hlast : hits.getLast? with
  | none => rw [List.getLast?_eq_none_iff.mp hlast]; rfl
  | some last => exact PyValue.as_int_int _

theorem tally_concat (hits : List (Access V)) (last : Access V) :
    tally window_seconds (hits ++ [last]) =
      some ⟨PyValue.int (hits.length + 1), some (last.now + (max 1 (window_seconds * 2) : ℤ))⟩ := by
  simp [tally]

/-- Counting at a key that shows a tally takes the next hit in. -/
theorem perform_incr {values : Values V} {hits : List (Access V)} {key : String} {now : ℚ}
    (hlive : live now (values key) = tally window_seconds hits) :
    values.perform ⟨now, .incr key (some (max 1 (window_seconds * 2)))⟩ =
      (.ok (.count (hits.length + 1)), Function.update values key
        (some ⟨PyValue.int (hits.length + 1), some (now + (max 1 (window_seconds * 2) : ℤ))⟩)) := by
  have hvalid : validate_expire (some (max 1 (window_seconds * 2))) = .ok () :=
    validate_limit_ok_iff.mpr (by omega)
  simp only [Values.perform, Values.operate, hvalid, hlive, tally_count, Option.map_some, Option.some_or]

/-- The entry of an interval outlives the interval. -/
theorem live_tally (hwindow : 1 ≤ window_seconds) {accesses : List (Access V)} {bucket : ℤ} {now : ℚ}
    (hinterval : in_interval bucket window_seconds (now + offset) = true) :
    live now (tally window_seconds (hits_in offset counter_key window_seconds bucket accesses)) =
      tally window_seconds (hits_in offset counter_key window_seconds bucket accesses) := by
  unfold tally
  cases hlast : (hits_in offset counter_key window_seconds bucket accesses).getLast? with
  | none => rfl
  | some last =>
    refine live_some_of_alive (Timed.alive_iff.mpr ?_)
    rintro time ⟨⟩
    have hmem := List.mem_of_getLast? hlast
    simp only [hits_in, List.mem_filter, Bool.and_eq_true, in_interval_iff] at hmem
    have hto := (in_interval_iff.mp hinterval).2
    have hlong : (window_seconds : ℚ) ≤ (max 1 (window_seconds * 2) : ℤ) := by
      exact_mod_cast (by omega : window_seconds ≤ max 1 (window_seconds * 2))
    linarith [hmem.2.2.1]

/-- In a run on one counter, the entry of an interval is the tally of its hits. -/
theorem entry_eq_tally (hwindow : 1 ≤ window_seconds) {accesses : List (Access V)}
    (hrun : OneCounter counter_key window_seconds accesses) (bucket : ℤ) :
    settle Values.perform .empty (accesses.map (underlying offset)) (build_bucket_key counter_key bucket) =
      tally window_seconds (hits_in offset counter_key window_seconds bucket accesses) := by
  induction accesses using List.reverseRecOn with
  | nil => rfl
  | append_singleton before access ih =>
    have hbefore := ih hrun.before
    rw [List.map_append, List.map_singleton, settle_concat]
    rcases hrun.each access (by simp) with ⟨max_hits, hhit⟩ | hforeign
    · have hhits : access.hits counter_key = true := by simp [Access.hits, hhit]
      rw [underlying_of_hit hhit]
      by_cases hbucket : bucket_of (access.now + offset) window_seconds = bucket
      · have hinterval := (bucket_of_eq_iff hwindow).mp hbucket
        rw [hbucket, hits_in_concat before hhits hinterval]
        have hlive : live access.now (settle Values.perform .empty (before.map (underlying offset))
            (build_bucket_key counter_key bucket)) =
              tally window_seconds (hits_in offset counter_key window_seconds bucket before) := by
          rw [hbefore, live_tally hwindow hinterval]
        rw [perform_incr hlive, tally_concat]
        exact Function.update_self _ _ _
      · have hinterval := (bucket_of_eq_iff hwindow).not.mp hbucket
        rw [hits_in_concat_of_not before (by simp [hinterval]), ← hbefore]
        exact Values.operate_of_ne _ _ rfl (fun heq => hbucket (build_bucket_key_injective heq).symm)
    · rw [underlying_of_foreign hforeign, hits_in_concat_of_not before (by rw [hforeign.not_hits]; rfl), ← hbefore]
      obtain ⟨key, hkey, -, hprefix⟩ := hforeign
      apply Values.operate_of_ne _ _ hkey
      rintro rfl
      rw [starts_with_build_bucket_key] at hprefix
      cases hprefix

end Counter

namespace ManagerStorage

variable [PyFloat V]

/-- In a run on one counter, a hit answers the number of the counter's hits in its
    interval, itself included. -/
theorem hit_count_eq (offset : ℚ) (hwindow : 1 ≤ window_seconds) {before : List (Access V)} {access : Access V}
    (hrun : OneCounter counter_key window_seconds (before ++ [access]))
    (hhits : access.hits counter_key = true) :
    ((settle (clocked offset) init before).clocked offset access).1 = .ok (.hit {
      hit_count := (hits_in offset counter_key window_seconds
        (bucket_of (access.now + offset) window_seconds) before).length + 1
      oldest_timestamp := some (bucket_of (access.now + offset) window_seconds * window_seconds)
      current_timestamp := access.now + offset
      retry_after_timestamp := none }) := by
  obtain ⟨max_hits, hhit⟩ : ∃ max_hits, access.operation =
      .record_hit counter_key.1 counter_key.2.1 counter_key.2.2 window_seconds max_hits := by
    rcases hrun.each access (by simp) with hhit | hforeign
    · exact hhit
    · rw [hforeign.not_hits] at hhits
      cases hhits
  have hordered : ((before ++ [access]).map (underlying offset)).Pairwise
      (fun first second => first.now ≤ second.now) := by
    rw [List.pairwise_map]
    simpa only [underlying_now] using hrun.ordered
  have hsame := outputs_access hordered (underlying_plain hrun)
  rw [List.map_append, List.map_singleton, outputs_concat, outputs_concat, ← settle_clocked] at hsame
  have hcount := (List.append_inj' hsame rfl).2
  rw [underlying_of_hit hhit, perform_incr, List.singleton_inj, ← underlying_of_hit hhit] at hcount
  · rw [clocked_fst hhit hcount]
    rfl
  · rw [entry_eq_tally hwindow hrun.before, live_tally hwindow (in_interval_bucket_of hwindow _)]

/-- Of the hits in one interval the first ones are within a limit, as many as it
    allows. -/
theorem within_in_interval (offset : ℚ) (hwindow : 1 ≤ window_seconds) {accesses : List (Access V)}
    (hrun : OneCounter counter_key window_seconds accesses) {count : ℤ} (hcount : 0 ≤ count) (bucket : ℤ) :
    (hits_within offset counter_key count (in_interval bucket window_seconds)
      (accesses.zip (outputs (clocked offset) init accesses)) : ℤ) =
        min ((hits_in offset counter_key window_seconds bucket accesses).length : ℤ) count := by
  unfold hits_within
  induction accesses using List.reverseRecOn with
  | nil => simp [outputs, hits_in, hcount]
  | append_singleton before access ih =>
    rw [outputs_concat, List.zip_append (outputs_length _ _ _).symm, List.countP_append, Nat.cast_add,
      ih hrun.before, List.zip_cons_cons, List.zip_nil_left, List.countP_singleton]
    cases hhits : access.hits counter_key && in_interval bucket window_seconds (access.now + offset) with
    | false =>
      rw [hits_in_concat_of_not before hhits]
      simp
    | true =>
      obtain ⟨hhit, hinterval⟩ := Bool.and_eq_true_iff.mp hhits
      rw [hits_in_concat before hhit hinterval, hit_count_eq offset hwindow hrun hhit,
        (bucket_of_eq_iff hwindow).mpr hinterval]
      simp only [Reply.within, Bool.true_and, decide_eq_true_eq, List.length_append, List.length_singleton]
      split <;> omega

/-- A window meets two intervals at most, so at most twice the count is within the
    limit in it. -/
theorem within_in_window (offset : ℚ) (hwindow : 1 ≤ window_seconds) {accesses : List (Access V)}
    (hrun : OneCounter counter_key window_seconds accesses) {count : ℤ} (hcount : 0 ≤ count) (last : ℚ) :
    (hits_within offset counter_key count (fun time => last - window_seconds < time && time ≤ last)
      (accesses.zip (outputs (clocked offset) init accesses)) : ℤ) ≤ 2 * count := by
  have hfirst := within_in_interval offset hwindow hrun hcount (bucket_of last window_seconds - 1)
  have hsecond := within_in_interval offset hwindow hrun hcount (bucket_of last window_seconds)
  have hsplit := hits_within_le_add offset counter_key count
    (fun time => last - window_seconds < time && time ≤ last)
    (in_interval (bucket_of last window_seconds - 1) window_seconds)
    (in_interval (bucket_of last window_seconds) window_seconds)
    (fun time hduring => by
      rw [Bool.and_eq_true, decide_eq_true_iff, decide_eq_true_iff] at hduring
      exact in_interval_of_lt hwindow hduring.1 hduring.2)
    (accesses.zip (outputs (clocked offset) init accesses))
  omega

theorem clocked_record_hit (self : ManagerStorage V) (now : ℚ) (counter_key : CounterKey) (window_seconds : ℤ)
    (max_hits : Option ℤ) :
    self.clocked offset ⟨now, .record_hit counter_key.1 counter_key.2.1 counter_key.2.2 window_seconds max_hits⟩ =
      ((self.record_hit (now + offset) now counter_key.1 counter_key.2.1 counter_key.2.2 window_seconds
        max_hits).1.map .hit,
       (self.record_hit (now + offset) now counter_key.1 counter_key.2.1 counter_key.2.2 window_seconds
        max_hits).2) := rfl

/-- A call of `record_hit` in a run on one counter. -/
theorem record_hit_eq (hwindow : 1 ≤ window_seconds) {before : List (Access V)} {now : ℚ} {max_hits : Option ℤ}
    (hrun : OneCounter counter_key window_seconds (before ++
      [⟨now, .record_hit counter_key.1 counter_key.2.1 counter_key.2.2 window_seconds max_hits⟩])) :
    ((settle (clocked offset) init before).record_hit (now + offset) now counter_key.1 counter_key.2.1
      counter_key.2.2
      window_seconds max_hits).1 = .ok {
        hit_count := (hits_in offset counter_key window_seconds
          (bucket_of (now + offset) window_seconds) before).length + 1
        oldest_timestamp := some (bucket_of (now + offset) window_seconds * window_seconds)
        current_timestamp := now + offset
        retry_after_timestamp := none } := by
  have hreply := hit_count_eq offset hwindow hrun (hits_record_hit _ _ now _)
  rw [clocked_record_hit] at hreply
  revert hreply
  generalize ((settle (clocked offset) init before).record_hit _ _ _ _ _ _ _).1 = answer
  cases answer with
  | error e => exact nofun
  | ok result =>
    intro hreply
    simp only [Except.map, Except.ok.injEq, Reply.hit.injEq] at hreply
    rw [hreply]

/-- When the evaluator matches a rule, the retry time is between a second and the
    window, and without further hits a later hit is within the limit exactly from
    the retry time on. -/
theorem retry_after_exact (hwindow : 1 ≤ window_seconds) {accesses : List (Access V)}
    (hrun : OneCounter counter_key window_seconds accesses) {rule : Rule}
    (hrule : rule.window_seconds = window_seconds)
    {scope_identifiers : OrderedDict String String}
    (hidentifier : scope_identifiers.get? rule.scope = some counter_key.1)
    {now : ℚ} (hnow : ∀ access ∈ accesses, access.now ≤ now) {matched : MatchedPolicy} {storage : ManagerStorage V}
    (hmatch : evaluate_rules (fun storage => storage.record_hit (now + offset) now) scope_identifiers counter_key.2.1
      [(rule, counter_key.2.2)] [] (settle (clocked offset) init accesses) = (.ok (some matched), storage)) :
    (1 ≤ matched.retry_after ∧ matched.retry_after ≤ window_seconds) ∧
    ∀ (others : List (Access V)) (wait : ℤ) (max_hits : Option ℤ), 0 ≤ wait →
      others.Pairwise (fun first second => first.now ≤ second.now) →
      (∀ access ∈ others, Foreign access.operation ∧ now ≤ access.now ∧ access.now ≤ now + wait) →
      ∃ result, ((settle (clocked offset) storage others).record_hit (now + wait + offset) (now + wait)
        counter_key.1 counter_key.2.1 counter_key.2.2 window_seconds max_hits).1 = .ok result ∧
        (result.hit_count ≤ rule.count ↔ matched.retry_after ≤ wait) := by
  let call : Access V :=
    ⟨now, .record_hit counter_key.1 counter_key.2.1 counter_key.2.2 window_seconds (some (rule.count + 1))⟩
  have hcall : OneCounter counter_key window_seconds (accesses ++ [call]) := hrun.concat_hit hnow _
  rw [evaluate_rules_single _ hidentifier] at hmatch
  simp only [policy.record_hit, hrule, record_hit_eq hwindow hcall, Except.map, Prod.mk.injEq,
    Except.ok.injEq] at hmatch
  obtain ⟨hverdict, hstorage⟩ := hmatch
  have hinterval := in_interval_bucket_of hwindow (now + offset)
  obtain ⟨hover, rfl⟩ := verdict_eq_some_iff.mp hverdict
  simp only [retry_hit, hrule, Option.none_or, Nat.cast_add, Nat.cast_one, gt_iff_lt] at hover ⊢
  refine ⟨retry_after_seconds_bounds (in_interval_iff.mp hinterval).1 hwindow, ?_⟩
  intro others wait max_hits hwait hordered hothers
  have hlater : now ≤ now + wait := by
    have : (0 : ℚ) ≤ wait := by exact_mod_cast hwait
    linarith
  have hpast : ∀ access ∈ accesses ++ [call], access.now ≤ now := by
    simpa [or_imp, forall_and] using ⟨hnow, le_refl now⟩
  have hforeign : ∀ access ∈ others, Foreign access.operation := fun access haccess => (hothers access haccess).1
  have hrest : OneCounter counter_key window_seconds (accesses ++ [call] ++ others) :=
    hcall.append_foreign hordered hforeign
      (fun first hfirst second hsecond => (hpast first hfirst).trans (hothers second hsecond).2.1)
  have hsettled : settle (clocked offset) storage others =
      settle (clocked offset) init (accesses ++ [call] ++ others) := by
    rw [settle_append, settle_concat, clocked_record_hit, ← hstorage]
  have hearlier : ∀ access ∈ accesses ++ [call] ++ others, access.now ≤ now + wait := by
    intro access haccess
    rcases List.mem_append.mp haccess with hbefore | hother
    · exact (hpast access hbefore).trans hlater
    · exact (hothers access hother).2.2
  rw [hsettled, record_hit_eq hwindow (hrest.concat_hit hearlier max_hits)]
  refine ⟨_, rfl, ?_⟩
  have hpositive := rule.count_pos
  have hhits := hits_in_later offset hwindow hnow
    (hits_record_hit counter_key window_seconds now (some (rule.count + 1))) hwait
  rw [hits_in_append_foreign _ _ hforeign, add_right_comm now, hhits]
  split
  · simp only [List.length_append, List.length_singleton, Nat.cast_add, Nat.cast_one]
    omega
  · simp only [List.length_nil, Nat.zero_add, Nat.cast_one]
    omega

/-- Approximate counting is a fixed window. A hit answers the number of its
    counter's hits so far in its aligned interval, at most twice a limit is
    within it in any window, and the retry time is sufficient and least. -/
theorem approximate_fixed_window (offset : ℚ) (hwindow : 1 ≤ window_seconds) {accesses : List (Access V)}
    (hrun : OneCounter counter_key window_seconds accesses) :
    (∀ before access rest bucket, accesses = before ++ access :: rest → access.hits counter_key = true →
      in_interval bucket window_seconds (access.now + offset) = true →
      ∃ result, (outputs (clocked offset) init accesses)[before.length]? = some (.ok (.hit result)) ∧
        result.hit_count = (hits_in offset counter_key window_seconds bucket (before ++ [access])).length) ∧
    (∀ (count : ℤ) (last : ℚ), 1 ≤ count →
      (hits_within offset counter_key count (fun time => last - window_seconds < time && time ≤ last)
        (accesses.zip (outputs (clocked offset) init accesses)) : ℤ) ≤ 2 * count) ∧
    ∀ (rule : Rule) (scope_identifiers : OrderedDict String String) (now : ℚ) (matched : MatchedPolicy)
      (storage : ManagerStorage V), rule.window_seconds = window_seconds →
      scope_identifiers.get? rule.scope = some counter_key.1 → (∀ access ∈ accesses, access.now ≤ now) →
      evaluate_rules (fun storage => storage.record_hit (now + offset) now) scope_identifiers counter_key.2.1
        [(rule, counter_key.2.2)] [] (settle (clocked offset) init accesses) = (.ok (some matched), storage) →
      (1 ≤ matched.retry_after ∧ matched.retry_after ≤ window_seconds) ∧
      ∀ (others : List (Access V)) (wait : ℤ) (max_hits : Option ℤ), 0 ≤ wait →
        others.Pairwise (fun first second => first.now ≤ second.now) →
        (∀ access ∈ others, Foreign access.operation ∧ now ≤ access.now ∧ access.now ≤ now + wait) →
        ∃ result, ((settle (clocked offset) storage others).record_hit (now + wait + offset) (now + wait)
          counter_key.1 counter_key.2.1 counter_key.2.2 window_seconds max_hits).1 = .ok result ∧
          (result.hit_count ≤ rule.count ↔ matched.retry_after ≤ wait) := by
  refine ⟨?_, ?_, ?_⟩
  · rintro before access rest bucket rfl hhits hinterval
    rw [List.append_cons] at hrun
    rw [outputs_getElem?, hit_count_eq offset hwindow hrun.before hhits]
    refine ⟨_, rfl, ?_⟩
    rw [hits_in_concat before hhits hinterval, (bucket_of_eq_iff hwindow).mpr hinterval, List.length_append,
      List.length_singleton]
  · intro count last hcount
    exact within_in_window offset hwindow hrun (by omega) last
  · intro rule scope_identifiers now matched storage hrule hidentifier hnow hmatch
    exact retry_after_exact hwindow hrun hrule hidentifier hnow hmatch

/-- A client that comes back too soon. -/
def early_visits : List (Access ClockedValue) :=
  [⟨10, .record_hit "alice" "report" 0 60 none⟩, ⟨20, .set "visits" (.plain (.int 1)) none⟩]

theorem early_visits_one_counter : OneCounter ("alice", "report", 0) 60 early_visits where
  ordered := by decide +kernel
  each := by
    simp only [early_visits, List.forall_mem_cons]
    exact ⟨Or.inl ⟨none, rfl⟩, Or.inr ⟨_, rfl, rfl, rfl⟩, nofun⟩

/-- What the evaluator makes of a visit at 30. -/
def early_match : Except PyError (Option MatchedPolicy) × ManagerStorage ClockedValue :=
  evaluate_rules (fun storage => storage.record_hit (30 + 1010) 30) (OrderedDict.empty.set "ip" "alice") "report"
    [(Rule.one_per_minute, 0)] [] (settle (clocked 1010) init early_visits)

theorem early_match_retry_after :
    early_match.1.toOption.map (Option.map MatchedPolicy.retry_after) = some (some 40) := by
  decide +kernel

theorem early_visits_counted :
    (∃ result, (outputs (clocked 1010) init early_visits)[0]? = some (.ok (.hit result)) ∧ result.hit_count = 1) ∧
    (hits_within 1010 ("alice", "report", 0) 1 (fun time => 1030 - (60 : ℤ) < time && time ≤ 1030)
      (early_visits.zip (outputs (clocked 1010) init early_visits)) : ℤ) ≤ 2 * 1 ∧
    ∃ matched storage, early_match = (.ok (some matched), storage) ∧
      (1 ≤ matched.retry_after ∧ matched.retry_after ≤ 60) ∧
      ∃ result, (storage.record_hit (30 + (40 : ℤ) + 1010) (30 + (40 : ℤ)) "alice" "report" 0 60 none).1 =
        .ok result ∧
        (result.hit_count ≤ Rule.one_per_minute.count ↔ matched.retry_after ≤ 40) := by
  obtain ⟨hcounts, hwithin, hretry⟩ :=
    approximate_fixed_window (V := ClockedValue) 1010 (by decide) early_visits_one_counter
  refine ⟨?_, hwithin 1 1030 (by decide), ?_⟩
  · obtain ⟨result, hanswer, hcount⟩ := hcounts [] _ _ 17 rfl (by decide) (by decide +kernel)
    exact ⟨result, hanswer, hcount.trans (by decide +kernel)⟩
  · obtain ⟨matched, hmatched⟩ : ∃ matched, early_match.1 = .ok (some matched) := by
      have hsome := early_match_retry_after
      revert hsome
      cases early_match.1 with
      | error e => exact nofun
      | ok selected =>
        cases selected with
        | none => exact nofun
        | some matched => exact fun _ => ⟨matched, rfl⟩
    have hmatch : early_match = (.ok (some matched), early_match.2) := Prod.ext hmatched rfl
    refine ⟨matched, early_match.2, hmatch, ?_⟩
    obtain ⟨hbounds, hlater⟩ := hretry Rule.one_per_minute (OrderedDict.empty.set "ip" "alice") 30 matched
      early_match.2 rfl rfl (by decide +kernel) hmatch
    exact ⟨hbounds, hlater [] 40 none (by decide) List.Pairwise.nil nofun⟩

end ManagerStorage

end response_bandwidth_limiter.manager

import ResponseBandwidthLimiter.Backends.Manager.FixedWindow
import ResponseBandwidthLimiter.Backends.Manager.SharedControls
import ResponseBandwidthLimiter.SlidingWindow.Shared

open collections
open response_bandwidth_limiter.base response_bandwidth_limiter.models response_bandwidth_limiter.ip_manager
open response_bandwidth_limiter.memory response_bandwidth_limiter.counter_keys

namespace response_bandwidth_limiter.manager

variable {Address V : Type} {counter_key : CounterKey} {window_seconds : ℤ} {offset : ℚ}

namespace ProcessCall

/-- Whether a call is a hit of a counter. -/
def hits (self : ProcessCall V) (counter_key : CounterKey) : Bool :=
  match self.event with
  | .storage operation => Access.hits ⟨self.now, operation⟩ counter_key
  | .ip _ => false

/-- Whether a call may write or remove the value of a counter. -/
def Touches (self : ProcessCall V) (key : String) : Prop :=
  ∃ operation, self.event = .storage operation ∧ ManagerStorage.Touches self.time operation key

/-- A hit of a counter in an aligned interval. -/
def bucket_hit (counter_key : CounterKey) (window_seconds bucket : ℤ) (self : ProcessCall V) : Option (Access V) :=
  match self.event with
  | .storage operation =>
    if Access.hits ⟨self.now, operation⟩ counter_key && in_interval bucket window_seconds self.time then
      some ⟨self.now, operation⟩
    else none
  | .ip _ => none

theorem bucket_hit_eq_none_iff {self : ProcessCall V} {bucket : ℤ} :
    self.bucket_hit counter_key window_seconds bucket = none ↔
      (self.hits counter_key && in_interval bucket window_seconds self.time) = false := by
  obtain ⟨process, time, now, event⟩ := self
  cases event with
  | ip operation => simp [bucket_hit, hits]
  | storage operation => simp [bucket_hit, hits]

theorem bucket_hit_of_hits {self : ProcessCall V} {bucket : ℤ} {operation : Operation V}
    (hevent : self.event = .storage operation) (hhits : self.hits counter_key = true)
    (hinterval : in_interval bucket window_seconds self.time = true) :
    self.bucket_hit counter_key window_seconds bucket = some ⟨self.now, operation⟩ := by
  simp only [hits, hevent] at hhits
  simp only [bucket_hit, hevent, hhits, hinterval, Bool.and_self, if_true]

theorem bucket_hit_eq_some {self : ProcessCall V} {bucket : ℤ} {access : Access V}
    (hhit : self.bucket_hit counter_key window_seconds bucket = some access) :
    access.now = self.now ∧ self.hits counter_key = true ∧ in_interval bucket window_seconds self.time = true := by
  unfold bucket_hit at hhit
  split at hhit
  · next hevent =>
    split at hhit
    · next hkind =>
      obtain ⟨hhits, hinterval⟩ := (Bool.and_eq_true _ _).mp hkind
      cases hhit
      exact ⟨rfl, by rwa [hits, hevent], hinterval⟩
    · cases hhit
  · cases hhit

end ProcessCall

/-- The hits of a counter in an aligned interval. -/
def shared_hits_in (counter_key : CounterKey) (window_seconds bucket : ℤ) (calls : List (ProcessCall V)) :
    List (Access V) :=
  calls.filterMap (ProcessCall.bucket_hit counter_key window_seconds bucket)

/-- A hit is admitted when the reply is within the limit. -/
def admits_hit (counter_key : CounterKey) (count : ℤ) (during : ℚ → Bool)
    (entry : ProcessCall V × Except PyError (Reply V)) : Bool :=
  (entry.1.hits counter_key && during entry.1.time) && Reply.within count entry.2

/-- A run in which all hits of a counter have one window, no other call touches
    the counter, and a process waits for the lock less than a window after it
    has read `time.time`. -/
structure Untouched (counter_key : CounterKey) (window_seconds : ℤ) (offset : ℚ) (calls : List (ProcessCall V)) :
    Prop where
  ordered : calls.Pairwise (fun first second => first.now ≤ second.now)
  spares : ∀ call ∈ calls, SparesExpiries call.event
  hits : ∀ call ∈ calls, call.hits counter_key = true →
    (∃ max_hits, call.event =
      .storage (.record_hit counter_key.1 counter_key.2.1 counter_key.2.2 window_seconds max_hits)) ∧
    call.time ≤ call.now + offset ∧ call.now + offset < call.time + window_seconds
  others : ∀ call ∈ calls, call.hits counter_key = false →
    ∀ bucket, ¬ call.Touches (build_bucket_key counter_key bucket)

theorem Untouched.before {before rest : List (ProcessCall V)}
    (h : Untouched counter_key window_seconds offset (before ++ rest)) :
    Untouched counter_key window_seconds offset before where
  ordered := (List.pairwise_append.mp h.ordered).1
  spares call hcall := h.spares call (List.mem_append_left _ hcall)
  hits call hcall := h.hits call (List.mem_append_left _ hcall)
  others call hcall := h.others call (List.mem_append_left _ hcall)

theorem shared_hits_in_concat (before : List (ProcessCall V)) (call : ProcessCall V) (bucket : ℤ) :
    shared_hits_in counter_key window_seconds bucket (before ++ [call]) =
      shared_hits_in counter_key window_seconds bucket before ++
        (call.bucket_hit counter_key window_seconds bucket).toList := by
  rw [shared_hits_in, List.filterMap_append, shared_hits_in]
  cases hhit : call.bucket_hit counter_key window_seconds bucket <;> simp [hhit]

variable [PyFloat V] {lib : IpLibrary Address}

/-- The entry of an interval outlives the interval, even for a process that had
    to wait. -/
theorem live_shared_tally (hwindow : 1 ≤ window_seconds) {calls : List (ProcessCall V)}
    (hcalls : Untouched counter_key window_seconds offset calls) {bucket : ℤ} {time now : ℚ}
    (hinterval : in_interval bucket window_seconds time = true) (hwait : now + offset < time + window_seconds) :
    live now (tally window_seconds (shared_hits_in counter_key window_seconds bucket calls)) =
      tally window_seconds (shared_hits_in counter_key window_seconds bucket calls) := by
  unfold tally
  cases hlast : (shared_hits_in counter_key window_seconds bucket calls).getLast? with
  | none => rfl
  | some last =>
    refine live_some_of_alive (Timed.alive_iff.mpr ?_)
    rintro expires ⟨⟩
    obtain ⟨call, hcall, hhit⟩ := List.mem_filterMap.mp (List.mem_of_getLast? hlast)
    obtain ⟨hnow, hhits, hlater⟩ := ProcessCall.bucket_hit_eq_some hhit
    have hread := (hcalls.hits call hcall hhits).2.1
    have hfrom := (in_interval_iff.mp hlater).1
    have hto := (in_interval_iff.mp hinterval).2
    have hlong : (window_seconds * 2 : ℚ) ≤ (max 1 (window_seconds * 2) : ℤ) := by
      exact_mod_cast (by omega : window_seconds * 2 ≤ max 1 (window_seconds * 2))
    linarith

theorem tally_of_bucket_hit {before : List (ProcessCall V)} {call : ProcessCall V} {bucket : ℤ} {access : Access V}
    (hhit : call.bucket_hit counter_key window_seconds bucket = some access) :
    tally window_seconds (shared_hits_in counter_key window_seconds bucket (before ++ [call])) =
      some ⟨PyValue.int ((shared_hits_in counter_key window_seconds bucket before).length + 1),
        some (call.now + (max 1 (window_seconds * 2) : ℤ))⟩ := by
  rw [shared_hits_in_concat, hhit, Option.toList_some, tally_concat, (ProcessCall.bucket_hit_eq_some hhit).1]

namespace SharedStorage

/-- A call leaves what shows of a counter that it does not touch. -/
theorem live_serve_of_untouched {storage : ManagerStorage V} (htidy : storage.Tidy) {call : ProcessCall V}
    (hspares : SparesExpiries call.event) {bucket : ℤ}
    (huntouched : ¬ call.Touches (build_bucket_key counter_key bucket)) :
    live call.now ((storage.serve lib call.time call.now call.event).2.entry (build_bucket_key counter_key bucket)) =
      live call.now (storage.entry (build_bucket_key counter_key bucket)) := by
  have hbucket := plain_build_bucket_key counter_key bucket
  cases hevent : call.event with
  | storage operation =>
    exact htidy.live_operate (hspares operation hevent) hbucket fun htouches =>
      huntouched ⟨operation, hevent, htouches⟩
  | ip operation =>
    cases hvalue : operation.value_operation (V := V) lib with
    | error e => rw [storage.serve_of_error hvalue]
    | ok value_operation =>
      obtain ⟨control, address, hkey⟩ := IpOperation.key_of_value_operation hvalue
      rw [storage.serve_of_value_operation hvalue]
      refine htidy.live_operate_of_ne call.time _ hkey (plain_control_key lib control address) hbucket ?_
      intro heq
      have hcounter := starts_with_build_bucket_key counter_key bucket
      rw [heq, counter_ne_control (control.key_starts_with lib address)] at hcounter
      cases hcounter

/-- A hit reports one more than the tally of its interval, and leaves the next
    tally. -/
theorem serve_hit (lib : IpLibrary Address) (hwindow : 1 ≤ window_seconds) {before : List (ProcessCall V)}
    (hbefore : Untouched counter_key window_seconds offset before) {storage : ManagerStorage V}
    (htidy : storage.Tidy)
    {time now : ℚ} (hread : now + offset < time + window_seconds) {bucket : ℤ}
    (hinterval : in_interval bucket window_seconds time = true)
    (hshows : live now (storage.entry (build_bucket_key counter_key bucket)) =
      live now (tally window_seconds (shared_hits_in counter_key window_seconds bucket before)))
    (max_hits : Option ℤ) :
    (∃ result, (storage.serve lib time now (.storage
        (.record_hit counter_key.1 counter_key.2.1 counter_key.2.2 window_seconds max_hits))).1 = .ok (.hit result) ∧
      result.hit_count = (shared_hits_in counter_key window_seconds bucket before).length + 1) ∧
    live now ((storage.serve lib time now (.storage
        (.record_hit counter_key.1 counter_key.2.1 counter_key.2.2 window_seconds max_hits))).2.entry
          (build_bucket_key counter_key bucket)) =
      live now (some ⟨PyValue.int ((shared_hits_in counter_key window_seconds bucket before).length + 1),
        some (now + (max 1 (window_seconds * 2) : ℤ))⟩) := by
  have hplain := plain_build_bucket_key counter_key bucket
  rw [live_shared_tally hwindow hbefore hinterval hread] at hshows
  have hincr := perform_incr hshows
  obtain ⟨hreply, hentries, -⟩ := htidy.incr time now hplain (some (max 1 (window_seconds * 2)))
  simp only [Values.perform] at hincr
  rw [hincr] at hreply hentries
  have hcount : (storage.incr now (build_bucket_key counter_key bucket) (some (max 1 (window_seconds * 2)))).1 =
      .ok ((shared_hits_in counter_key window_seconds bucket before).length + 1 : ℤ) := by
    simp only [ManagerStorage.operate] at hreply
    revert hreply
    cases (storage.incr now (build_bucket_key counter_key bucket) (some (max 1 (window_seconds * 2)))).1 <;>
      simp [Except.map]
  have hkey : build_approx_counter_key counter_key.1 counter_key.2.1 counter_key.2.2
      (bucket_of time window_seconds) =
      build_bucket_key counter_key bucket := by rw [(bucket_of_eq_iff hwindow).mpr hinterval, build_bucket_key]
  simp only [ManagerStorage.serve, ManagerStorage.operate, ManagerStorage.record_hit_fst,
    ManagerStorage.record_hit_snd, hkey, hcount, Except.map]
  refine ⟨⟨_, rfl, by simp⟩, ?_⟩
  exact (hentries _ hplain).trans (congrArg (live now) (Function.update_self _ _ _))

section Runs

variable {calls before : List (ProcessCall V)} {call : ProcessCall V}

/-- The run lemma: whatever else the processes do, the counter of an interval
    shows the tally of its hits. -/
theorem live_settle_counter (lib : IpLibrary Address) (hwindow : 1 ≤ window_seconds)
    (hcalls : Untouched counter_key window_seconds offset calls) {now : ℚ} (hnow : ∀ call ∈ calls, call.now ≤ now)
    (process : Nat) (bucket : ℤ) :
    live now (((settle (perform lib) init calls).storage process).entry (build_bucket_key counter_key bucket)) =
      live now (tally window_seconds (shared_hits_in counter_key window_seconds bucket calls)) := by
  induction calls using List.reverseRecOn generalizing now process with
  | nil => rfl
  | append_singleton before call ih =>
    have hbefore := hcalls.before
    have hpast := (List.pairwise_append.mp hcalls.ordered).2.2
    have hshows := ih hbefore (fun other hother => hpast other hother call (by simp)) call.process
    have htidy := settle_tidy lib hbefore.spares call.process
    have hle : call.now ≤ now := hnow call (by simp)
    rw [settle_concat, ← live_live_of_le hle, ← live_live_of_le hle (tally _ _)]
    apply congrArg (live now)
    change live call.now ((((settle (perform lib) init before).storage call.process).serve lib call.time call.now
      call.event).2.entry (build_bucket_key counter_key bucket)) = _
    cases hhits : call.hits counter_key with
    | false =>
      have hother : call.bucket_hit counter_key window_seconds bucket = none :=
        ProcessCall.bucket_hit_eq_none_iff.mpr (by rw [hhits]; rfl)
      rw [live_serve_of_untouched htidy (hcalls.spares call (by simp)) (hcalls.others call (by simp) hhits bucket),
        hshows, shared_hits_in_concat, hother, Option.toList_none, List.append_nil]
    | true =>
      obtain ⟨⟨max_hits, hevent⟩, -, hwait⟩ := hcalls.hits call (by simp) hhits
      cases hinterval : in_interval bucket window_seconds call.time with
      | true =>
        have hhit := ProcessCall.bucket_hit_of_hits hevent hhits hinterval
        rw [tally_of_bucket_hit hhit, hevent]
        exact (serve_hit lib hwindow hbefore htidy hwait hinterval hshows max_hits).2
      | false =>
        have hother : call.bucket_hit counter_key window_seconds bucket = none :=
          ProcessCall.bucket_hit_eq_none_iff.mpr (by rw [hinterval, Bool.and_false])
        rw [live_serve_of_untouched htidy (hcalls.spares call (by simp)), hshows, shared_hits_in_concat, hother,
          Option.toList_none, List.append_nil]
        rintro ⟨operation, hoperation, htouches⟩
        cases hevent.symm.trans hoperation
        have hsame := (bucket_of_eq_iff hwindow).mp (build_bucket_key_injective htouches)
        rw [hinterval] at hsame
        cases hsame

/-- A hit reports how many of the counter's hits in its interval, itself
    included, all processes have made. -/
theorem shared_hit_count (lib : IpLibrary Address) (hwindow : 1 ≤ window_seconds)
    (hcalls : Untouched counter_key window_seconds offset (before ++ [call])) (hhits : call.hits counter_key = true)
    {bucket : ℤ} (hinterval : in_interval bucket window_seconds call.time = true) :
    ∃ result, ((settle (perform lib) init before).perform lib call).1 = .ok (.hit result) ∧
      result.hit_count = (shared_hits_in counter_key window_seconds bucket (before ++ [call])).length := by
  have hpast := (List.pairwise_append.mp hcalls.ordered).2.2
  obtain ⟨⟨max_hits, hevent⟩, -, hwait⟩ := hcalls.hits call (by simp) hhits
  have hshows := live_settle_counter lib hwindow hcalls.before
    (fun other hother => hpast other hother call (by simp))
    call.process bucket
  have htidy := settle_tidy lib hcalls.before.spares call.process
  obtain ⟨result, hreply, hcount⟩ :=
    (serve_hit lib hwindow hcalls.before htidy hwait hinterval hshows max_hits).1
  refine ⟨result, ?_, ?_⟩
  · rw [← hreply, ← hevent]
    rfl
  · rw [shared_hits_in_concat, ProcessCall.bucket_hit_of_hits hevent hhits hinterval, hcount]
    simp

/-- Of the hits in one interval the first ones are admitted, as many as the limit
    allows, whichever processes make them. -/
theorem admits_in_interval (lib : IpLibrary Address) (hwindow : 1 ≤ window_seconds)
    (hcalls : Untouched counter_key window_seconds offset calls) {count : ℤ} (hcount : 0 ≤ count) (bucket : ℤ) :
    ((calls.zip (outputs (perform lib) init calls)).countP
      (admits_hit counter_key count (in_interval bucket window_seconds)) : ℤ) =
        min ((shared_hits_in counter_key window_seconds bucket calls).length : ℤ) count := by
  induction calls using List.reverseRecOn with
  | nil => simp [outputs, shared_hits_in, hcount]
  | append_singleton before call ih =>
    rw [outputs_concat, List.zip_append (outputs_length _ _ _).symm, List.countP_append, Nat.cast_add,
      ih hcalls.before, List.zip_cons_cons, List.zip_nil_left, List.countP_singleton]
    cases hhit : call.hits counter_key && in_interval bucket window_seconds call.time with
    | false =>
      rw [shared_hits_in_concat, ProcessCall.bucket_hit_eq_none_iff.mpr hhit]
      simp [admits_hit, hhit]
    | true =>
      obtain ⟨hhits, hinterval⟩ := (Bool.and_eq_true _ _).mp hhit
      obtain ⟨result, hreply, hresult⟩ := shared_hit_count lib hwindow hcalls hhits hinterval
      have hlength : (shared_hits_in counter_key window_seconds bucket (before ++ [call])).length =
          (shared_hits_in counter_key window_seconds bucket before).length + 1 := by
        obtain ⟨⟨max_hits, hevent⟩, -⟩ := hcalls.hits call (by simp) hhits
        rw [shared_hits_in_concat, ProcessCall.bucket_hit_of_hits hevent hhits hinterval]
        simp
      simp only [admits_hit, hhit, hreply, Reply.within, hresult, hlength, Bool.true_and, decide_eq_true_eq]
      split <;> omega

/-- A window meets two intervals at most. -/
theorem admits_in_window (lib : IpLibrary Address) (hwindow : 1 ≤ window_seconds)
    (hcalls : Untouched counter_key window_seconds offset calls) {count : ℤ} (hcount : 0 ≤ count) (last : ℚ) :
    ((calls.zip (outputs (perform lib) init calls)).countP
      (admits_hit counter_key count (fun time => last - window_seconds < time && time ≤ last)) : ℤ) ≤ 2 * count := by
  have hfirst := admits_in_interval lib hwindow hcalls hcount (bucket_of last window_seconds - 1)
  have hsecond := admits_in_interval lib hwindow hcalls hcount (bucket_of last window_seconds)
  have hkinds : ∀ entry ∈ calls.zip (outputs (perform lib) init calls),
      admits_hit counter_key count (fun time => last - window_seconds < time && time ≤ last) entry = true →
        admits_hit counter_key count (in_interval (bucket_of last window_seconds - 1) window_seconds) entry = true ∨
          admits_hit counter_key count (in_interval (bucket_of last window_seconds) window_seconds) entry =
            true := by
    intro entry _ hadmits
    simp only [admits_hit, Bool.and_eq_true, decide_eq_true_eq] at hadmits ⊢
    obtain ⟨⟨hhits, hafter, hle⟩, hwithin⟩ := hadmits
    exact (in_interval_of_lt hwindow hafter hle).imp (fun h => ⟨⟨hhits, h⟩, hwithin⟩) fun h => ⟨⟨hhits, h⟩, hwithin⟩
  have hsplit := sliding_window.countP_le_add hkinds
  omega

/-- Hits of one client in three processes, of which the second waits for the
    lock, among other calls. -/
def shared_visits : List (ProcessCall ClockedValue) :=
  [⟨0, 60, 0, .storage (.record_hit "alice" "item" 0 60 (some 2))⟩,
    ⟨1, 60, 5, .storage (.record_hit "alice" "item" 0 60 (some 2))⟩,
    ⟨1, 66, 6, .storage (.record_hit "bob" "item" 0 60 (some 2))⟩, ⟨2, 67, 7, .ip (.block_ip "192.0.2.1" none)⟩,
    ⟨2, 120, 60, .storage (.record_hit "alice" "item" 0 60 (some 2))⟩]

theorem shared_visits_untouched : Untouched ("alice", "item", 0) 60 60 shared_visits where
  ordered := by decide +kernel
  spares := by
    intro call hcall operation hevent key hkey
    simp only [shared_visits, List.mem_cons, List.not_mem_nil, or_false] at hcall
    rcases hcall with rfl | rfl | rfl | rfl | rfl <;> cases hevent <;> cases hkey
  hits := by
    intro call hcall hhits
    simp only [shared_visits, List.mem_cons, List.not_mem_nil, or_false] at hcall
    rcases hcall with rfl | rfl | rfl | rfl | rfl
    · exact ⟨⟨_, rfl⟩, by decide +kernel, by decide +kernel⟩
    · exact ⟨⟨_, rfl⟩, by decide +kernel, by decide +kernel⟩
    · exact absurd hhits (by decide)
    · exact absurd hhits (by decide)
    · exact ⟨⟨_, rfl⟩, by decide +kernel, by decide +kernel⟩
  others := by
    rintro call hcall hhits bucket ⟨operation, hevent, htouches⟩
    simp only [shared_visits, List.mem_cons, List.not_mem_nil, or_false] at hcall
    rcases hcall with rfl | rfl | rfl | rfl | rfl
    · exact absurd hhits (by decide)
    · exact absurd hhits (by decide)
    · cases hevent
      rw [ManagerStorage.Touches, build_bucket_key, build_approx_counter_key_eq,
        build_approx_counter_key_eq] at htouches
      have htail := approx_tail_injective _ _ (append_left_injective (append_left_injective htouches))
      have hclient : "bob" = "alice" := congrArg (fun counter => counter.2.1) htail
      exact absurd hclient (by decide)
    · cases hevent
    · exact absurd hhits (by decide)

end Runs

end SharedStorage

end response_bandwidth_limiter.manager

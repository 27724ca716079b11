import ResponseBandwidthLimiter.Backends.Memory.Coverage
import ResponseBandwidthLimiter.Backends.Redis.Cluster

open collections sliding_window
open response_bandwidth_limiter.base response_bandwidth_limiter.models response_bandwidth_limiter.memory

namespace response_bandwidth_limiter.redis

namespace ClusterOutcome

variable {V : Type} (self : ClusterOutcome V)

/-- The server did not answer, and the worker's counters do not depend on it. -/
def passed_open : Bool := self.call.env.fault ≠ .none && self.storage.counter_failure_mode = .fail_open

/-- The server did not answer, and the worker counted in its own memory. -/
def fell_back : Bool := self.call.env.fault ≠ .none && self.storage.counter_failure_mode = .local_memory_fallback

/-- A hit of a counter in a window that its caller takes for admitted. -/
def admitted (counter_key : CounterKey) (rule : Rule) (last : ℚ) : Bool :=
  self.call.access.hits counter_key && self.in_window rule.window_seconds last && Reply.within rule.count self.result

end ClusterOutcome

namespace RedisStorage

variable {V : Type} {env : Environment} {self : RedisStorage V} {counter_key : CounterKey} {rule : Rule}
  {known : Finset CounterKey} {now : ℚ} {past : List ℚ}

theorem evaluated_of_fault (hfault : env.fault ≠ .none) (tostring : ℚ → ℚ) (key : String) (window_seconds : ℤ)
    (max_hits : Option ℤ) : (self.evaluated tostring env key window_seconds max_hits).1 = none := by
  unfold evaluated Server.call
  cases hcase : env.fault with
  | none => exact absurd hcase hfault
  | before => rfl
  | after => rfl

variable [PyValue V] (lib : Libraries V) (tostring : ℚ → ℚ)

/-- What the counter fallback of a worker has to cover after one of its calls. -/
theorem operate_covered (h : self.counter_fallback_storage.Covered counter_key rule known now past)
    (hle : now ≤ env.monotonic) {operation : Operation V}
    (hknown : ∀ query, (⟨env.monotonic, operation⟩ : Access V).hits query = true → query ∈ known)
    (hfollows : (⟨env.monotonic, operation⟩ : Access V).Follows counter_key rule)
    (hkeeps : (⟨env.monotonic, operation⟩ : Access V).Keeps counter_key rule) :
    let outcome := self.operate lib (.exact tostring) env operation
    outcome.2.counter_fallback_storage.Covered counter_key rule known env.monotonic
      (if (⟨env.monotonic, operation⟩ : Access V).hits counter_key &&
          ((env.fault ≠ .none && self.counter_failure_mode = .local_memory_fallback) &&
            Reply.within rule.count outcome.1)
        then past ++ [env.monotonic] else past) := by
  have hvalue : ∀ key, operation.key = some key →
      (self.operate lib (.exact tostring) env operation).2.counter_fallback_storage.Covered counter_key rule known
        env.monotonic past := by
    intro key hkey
    exact (h.wait hle).congr (self.operate_value_step lib (.exact tostring) env hkey).counters
  have haccess := h.access hle hknown hfollows hkeeps
  cases operation with
  | record_hit request_key handler_name rule_index window_seconds max_hits =>
    have hcall := self.record_hit_eq lib.hexdigest tostring env request_key handler_name rule_index
      window_seconds max_hits
    simp only at hcall
    simp only [operate, hcall]
    cases hcalled : (self.evaluated tostring env
        (self.build_counter_key lib.hexdigest request_key handler_name rule_index) window_seconds max_hits).1 with
    | some reply =>
      have hhealthy : env.fault = .none := by
        by_contra hfault
        rw [evaluated_of_fault hfault] at hcalled
        cases hcalled
      simp only [hhealthy, ne_eq, not_true_eq_false, decide_false, Bool.false_and, Bool.and_false,
        Bool.false_eq_true, if_false]
      exact h.wait hle
    | none =>
      cases hmode : self.counter_failure_mode with
      | fail_open =>
        simp only [reduceCtorEq, decide_false, Bool.and_false, Bool.false_and, Bool.false_eq_true, if_false]
        exact h.wait hle
      | fail_closed =>
        simp only [reduceCtorEq, decide_false, Bool.and_false, Bool.false_and, Bool.false_eq_true, if_false]
        exact h.wait hle
      | local_memory_fallback =>
        simp only [handle_record_hit_failure, on_counter_fallback]
        refine InMemoryStorage.Covered.of_sublist haccess ?_
        by_cases hfault : env.fault = .none
        · simp only [hfault, ne_eq, not_true_eq_false, decide_false, Bool.false_and, Bool.and_false,
            Bool.false_eq_true, if_false]
          split
          · exact List.sublist_append_left _ _
          · exact List.Sublist.refl _
        · simp only [hfault, ne_eq, not_false_eq_true, decide_true, Bool.true_and]
          exact List.Sublist.refl _
  | cleanup_handler_counters handler_name => exact haccess
  | cleanup_orphaned_counters active_rules => exact haccess
  | get key => exact hvalue key rfl
  | set key value expire => exact hvalue key rfl
  | incr key expire => exact hvalue key rfl
  | delete key => exact hvalue key rfl

/-- A failed hit is answered as the failure mode says. -/
theorem operate_failed (hfault : env.fault ≠ .none) {operation : Operation V}
    (hhits : (⟨env.monotonic, operation⟩ : Access V).hits counter_key = true)
    (hclosed : self.counter_failure_mode = .fail_closed) (count : ℤ) :
    Reply.within count (self.operate lib (.exact tostring) env operation).1 = false := by
  obtain ⟨window_seconds, max_hits, rfl⟩ := Access.hits_iff.mp hhits
  simp only [operate, record_hit_eq, evaluated_of_fault hfault, handle_record_hit_failure, hclosed]
  rfl

omit [PyValue V] in
theorem record_hit_generations (hexdigest : String → String) (self : RedisStorage V) (env : Environment)
    (request_key handler_name : String) (rule_index : Nat) (window_seconds : ℤ) (max_hits : Option ℤ) :
    (self.record_hit hexdigest (.exact tostring) env request_key handler_name rule_index window_seconds
      max_hits).2.handler_generations = self.handler_generations := by
  rw [record_hit_eq]
  simp only
  split
  · unfold handle_record_hit_failure
    split <;> rfl
  · rfl

/-- Without a cleanup of the handler a worker stays in its generation. -/
theorem operate_generation (self : RedisStorage V) (env : Environment) {operation : Operation V}
    (hkeeps : (⟨env.monotonic, operation⟩ : Access V).Keeps counter_key rule) :
    counter_keys.generation (self.operate lib (.exact tostring) env operation).2 counter_key.2.1 =
      counter_keys.generation self counter_key.2.1 := by
  have hvalue : ∀ key, operation.key = some key →
      counter_keys.generation (self.operate lib (.exact tostring) env operation).2 counter_key.2.1 =
        counter_keys.generation self counter_key.2.1 := by
    intro key hkey
    rw [counter_keys.generation, (self.operate_value_step lib (.exact tostring) env hkey).handler_generations]
    rfl
  cases operation with
  | record_hit request_key handler_name rule_index window_seconds max_hits =>
    simp only [operate, counter_keys.generation, record_hit_generations]
  | cleanup_handler_counters handler_name =>
    have hne : counter_key.2.1 ≠ handler_name := fun heq => hkeeps heq.symm
    simp only [operate, cleanup_handler_counters, counter_keys.generation, OrderedDict.get?_set_of_ne _ _ hne]
  | cleanup_orphaned_counters active_rules => rfl
  | get key => exact hvalue key rfl
  | set key value expire => exact hvalue key rfl
  | incr key expire => exact hvalue key rfl
  | delete key => exact hvalue key rfl

end RedisStorage

namespace Cluster

variable {V : Type} [PyValue V] {lib : Libraries V} {tostring : ℚ → ℚ} {self : Cluster V}
  {calls : List (ClusterCall V)} {keyspace : String} {key_hash : Bool} {counter_key : CounterKey} {rule : Rule}
  {known : Finset CounterKey} {offset : Nat → ℚ}

/-- The local times at which a worker admitted hits of a counter by itself. -/
def local_times (counter_key : CounterKey) (count : ℤ) (worker : Nat) (outcomes : List (ClusterOutcome V)) : List ℚ :=
  (outcomes.filter (fun outcome => outcome.call.worker = worker && (outcome.call.access.hits counter_key &&
    (outcome.fell_back && Reply.within count outcome.result)))).map (fun outcome => outcome.call.env.monotonic)

omit [PyValue V] in
theorem local_times_concat (counter_key : CounterKey) (count : ℤ) (worker : Nat) (outcomes : List (ClusterOutcome V))
    (outcome : ClusterOutcome V) :
    local_times counter_key count worker (outcomes ++ [outcome]) =
      if outcome.call.worker = worker && (outcome.call.access.hits counter_key &&
          (outcome.fell_back && Reply.within count outcome.result))
        then local_times counter_key count worker outcomes ++ [outcome.call.env.monotonic]
        else local_times counter_key count worker outcomes := by
  unfold local_times
  rw [List.filter_append, List.map_append, List.filter_singleton]
  cases decide (outcome.call.worker = worker) && (outcome.call.access.hits counter_key &&
    (outcome.fell_back && Reply.within count outcome.result)) with
  | true => rfl
  | false => simp

/-- Workers that start on a server without counters, in their first generation
    and with empty fallbacks that have room for the counters of a run. -/
structure Begins (cluster : Cluster V) (keyspace : String) (key_hash : Bool) (known : Finset CounterKey) : Prop where
  uniform : cluster.Uniform keyspace key_hash
  absent : ∀ counter, cluster.server (keyspace ++ ":counter:" ++ counter) = none
  generations : ∀ worker, (cluster.workers worker).handler_generations = .empty
  empty : ∀ worker, (cluster.workers worker).counter_fallback_storage.request_counters = .empty
  room : ∀ worker, known.card ≤ ((cluster.workers worker).counter_fallback_storage.max_counters : Nat)

/-- Calls among which a rule keeps its counter, where each worker's local clock
    is ahead of the server's by some offset. -/
structure Undisturbed (calls : List (ClusterCall V)) (counter_key : CounterKey) (rule : Rule)
    (known : Finset CounterKey) (offset : Nat → ℚ) : Prop where
  mono : calls.Pairwise (fun first second => first.env.server_time ≤ second.env.server_time)
  clock : ∀ call ∈ calls, call.env.monotonic = call.env.server_time + offset call.worker
  known : ∀ call ∈ calls, ∀ query, call.access.hits query = true → query ∈ known
  follows : ∀ call ∈ calls, call.access.Follows counter_key rule
  keeps : ∀ call ∈ calls, call.access.Keeps counter_key rule

omit [PyValue V] in
theorem Undisturbed.before {before : List (ClusterCall V)} {call : ClusterCall V}
    (h : Undisturbed (before ++ [call]) counter_key rule known offset) :
    Undisturbed before counter_key rule known offset where
  mono := (List.pairwise_append.mp h.mono).1
  clock other hother := h.clock other (List.mem_append_left _ hother)
  known other hother := h.known other (List.mem_append_left _ hother)
  follows other hother := h.follows other (List.mem_append_left _ hother)
  keeps other hother := h.keeps other (List.mem_append_left _ hother)

variable (lib tostring) in
/-- The run lemma: each worker's fallback covers what the worker admitted while
    the server did not answer it. -/
theorem settle_covered (hbegins : self.Begins keyspace key_hash known)
    (hcalls : Undisturbed calls counter_key rule known offset) {now : ℚ}
    (hnow : ∀ call ∈ calls, call.env.server_time ≤ now) (worker : Nat) :
    (((settle (Cluster.perform lib tostring) self calls).workers worker).counter_fallback_storage.Covered counter_key
      rule known (now + offset worker)
      (local_times counter_key rule.count worker (self.run lib tostring calls))) := by
  induction calls using List.reverseRecOn generalizing now worker with
  | nil => exact .of_empty (hbegins.empty worker) (hbegins.room worker) counter_key rule _
  | append_singleton before call ih =>
    obtain ⟨-, -, hlast⟩ := List.pairwise_append.mp hcalls.mono
    have hmem : call ∈ before ++ [call] := by simp
    have hclock := hcalls.clock call hmem
    have hcovered := ih hcalls.before (fun other hother => hlast other hother call (by simp))
    rw [run, outputs_concat, settle_concat, local_times_concat]
    have hcall := hnow call hmem
    by_cases hworker : call.worker = worker
    · subst hworker
      have hreached : (((settle (Cluster.perform lib tostring) self before).storage
          call.worker).counter_fallback_storage).Covered counter_key rule known
          (call.env.server_time + offset call.worker)
          (local_times counter_key rule.count call.worker (self.run lib tostring before)) := hcovered call.worker
      have hstep := RedisStorage.operate_covered lib tostring hreached (le_of_eq hclock.symm)
        (hcalls.known call hmem) (hcalls.follows call hmem) (hcalls.keeps call hmem)
      have hlater : call.env.monotonic ≤ now + offset call.worker := by
        rw [hclock]
        exact add_le_add_left hcall _
      have hown : decide (((settle (Cluster.perform lib tostring) self before).perform lib tostring
          call).1.call.worker = call.worker) = true := decide_eq_true rfl
      rw [hown, Bool.true_and]
      simp only [Cluster.perform, Function.update_self]
      exact hstep.wait hlater
    · have hsame : ((settle (Cluster.perform lib tostring) self before).perform lib tostring call).2.workers worker =
          (settle (Cluster.perform lib tostring) self before).workers worker :=
        Function.update_of_ne (Ne.symm hworker) _ _
      have hother : decide (((settle (Cluster.perform lib tostring) self before).perform lib tostring
          call).1.call.worker = worker) = false := decide_eq_false hworker
      rw [hsame, hother, Bool.false_and, if_neg Bool.false_ne_true]
      exact (hcovered worker).wait (add_le_add_left hcall _)

/-- Without a cleanup of the handler every hit counts under the generation that
    its worker began with. -/
theorem generation_of_keeps (hkeeps : ∀ call ∈ calls, call.access.Keeps counter_key rule)
    {outcome : ClusterOutcome V} (houtcome : outcome ∈ self.run lib tostring calls) :
    outcome.generation counter_key.2.1 = counter_keys.generation
      (self.workers outcome.call.worker) counter_key.2.1 := by
  induction calls generalizing self with
  | nil => simp [run, outputs] at houtcome
  | cons call rest ih =>
    rcases List.mem_cons.mp houtcome with rfl | hrest
    · rfl
    · rw [ih (fun other hother => hkeeps other (List.mem_cons_of_mem call hother)) hrest]
      by_cases hworker : outcome.call.worker = call.worker
      · have hstep := (self.storage call.worker).operate_generation lib tostring call.env (hkeeps call (by simp))
        rw [hworker]
        simp only [Cluster.perform, Function.update_self]
        exact hstep
      · have hsame : (self.perform lib tostring call).2.workers outcome.call.worker =
            self.workers outcome.call.worker := Function.update_of_ne hworker _ _
        rw [hsame]

variable (lib tostring) in
/-- What one worker admits by itself stays within the limit, in every window. -/
theorem local_within_le (hbegins : self.Begins keyspace key_hash known)
    (hcalls : Undisturbed calls counter_key rule known offset) (last : ℚ) (worker : Nat) :
    (self.run lib tostring calls).countP (fun outcome =>
      (outcome.fell_back && outcome.admitted counter_key rule last) && outcome.call.worker = worker) ≤
        rule.count.toNat := by
  obtain ⟨now, hnow⟩ : ∃ now, ∀ call ∈ calls, call.env.server_time ≤ now := by
    refine ⟨(calls.map (fun call => call.env.server_time)).foldr max 0, fun call hcall => ?_⟩
    exact List.le_max_of_le' _ (List.mem_map_of_mem hcall) (le_refl _)
  have hcovered := settle_covered lib tostring hbegins hcalls hnow worker
  refine le_trans ?_ (hcovered.covers.bounded (last + offset worker))
  rw [within, local_times, List.filter_map, List.length_map, List.filter_filter, ← List.countP_eq_length_filter]
  apply List.countP_mono_left
  intro outcome houtcome hcount
  simp only [ClusterOutcome.admitted, Bool.and_eq_true, decide_eq_true_eq] at hcount
  obtain ⟨⟨hback, ⟨hhits, hwindow⟩, hwithin⟩, rfl⟩ := hcount
  simp only [ClusterOutcome.in_window, Bool.and_eq_true, decide_eq_true_eq] at hwindow
  have hlocal := hcalls.clock outcome.call (call_mem houtcome)
  have hfrom : last + offset outcome.call.worker - rule.window_seconds < outcome.call.env.monotonic := by linarith
  have hto : outcome.call.env.monotonic ≤ last + offset outcome.call.worker := by linarith
  simp [hhits, hwithin, hback, hfrom, hto]

theorem run_result {outcome : ClusterOutcome V} (houtcome : outcome ∈ self.run lib tostring calls) :
    outcome.result =
      (outcome.storage.operate lib (.exact tostring) outcome.call.env outcome.call.operation).1 := by
  induction calls generalizing self with
  | nil => simp [run, outputs] at houtcome
  | cons call rest ih =>
    rcases List.mem_cons.mp houtcome with rfl | hrest
    · rfl
    · exact ih hrest

/-- A hit that is admitted was answered by the server, or by an open worker or
    the fallback of one. -/
theorem admitted_cases (hbegins : self.Begins keyspace key_hash known)
    (hcalls : Undisturbed calls counter_key rule known offset) {last : ℚ} {outcome : ClusterOutcome V}
    (houtcome : outcome ∈ self.run lib tostring calls) (hadmitted : outcome.admitted counter_key rule last = true) :
    ((outcome.call.access.hits counter_key && (outcome.in_window rule.window_seconds last &&
        outcome.served_within rule.count)) && decide (outcome.generation counter_key.2.1 = 0)) = true ∨
      outcome.passed_open = true ∨ outcome.fell_back = true := by
  have hall := hadmitted
  simp only [ClusterOutcome.admitted, Bool.and_eq_true] at hall
  by_cases hfault : outcome.call.env.fault = .none
  · have hgeneration : outcome.generation counter_key.2.1 = 0 := by
      rw [generation_of_keeps hcalls.keeps houtcome, counter_keys.generation, hbegins.generations]
      rfl
    left
    simp [ClusterOutcome.served_within, hall, hfault, hgeneration]
  · right
    cases hmode : outcome.storage.counter_failure_mode with
    | fail_open => exact Or.inl (by simp [ClusterOutcome.passed_open, hfault, hmode])
    | local_memory_fallback => exact Or.inr (by simp [ClusterOutcome.fell_back, hfault, hmode])
    | fail_closed =>
      have hresult : Reply.within rule.count (outcome.storage.operate lib (.exact tostring) outcome.call.env
          outcome.call.operation).1 = false :=
        RedisStorage.operate_failed lib tostring hfault hall.1.1 hmode rule.count
      rw [← run_result houtcome, hall.2] at hresult
      cases hresult

/-- The admitted hits of a window, by who admitted them. -/
theorem admitted_countP_le (hbegins : self.Begins keyspace key_hash known)
    (hcalls : Undisturbed calls counter_key rule known offset)
    (huuids : (calls.map (fun call => call.env.uuid)).Nodup)
    (hrule : ∀ hit ∈ self.run lib tostring calls, hit.call.access.hits counter_key = true →
      ∀ outcome ∈ self.run lib tostring calls, outcome.counter_key lib.hexdigest = hit.counter_key lib.hexdigest →
        outcome.Carries rule) (last : ℚ) :
    let admitted := (self.run lib tostring calls).filter (·.admitted counter_key rule last)
    (self.run lib tostring calls).countP (·.admitted counter_key rule last) ≤
      rule.count.toNat + (admitted.filter ClusterOutcome.passed_open).length +
        ((admitted.filter ClusterOutcome.fell_back).map (fun outcome => outcome.call.worker)).dedup.length *
          rule.count.toNat := by
  intro admitted
  have hserved := served_within_le hbegins.uniform hbegins.absent hcalls.mono huuids hrule last 0
  have hlocal := countP_le_of_labels _ (fun outcome : ClusterOutcome V => outcome.call.worker)
    (local_within_le lib tostring hbegins hcalls last)
  have hanswered : ∀ outcome ∈ self.run lib tostring calls, outcome.admitted counter_key rule last = true →
      ((outcome.call.access.hits counter_key && (outcome.in_window rule.window_seconds last &&
        outcome.served_within rule.count)) && decide (outcome.generation counter_key.2.1 = 0)) = true ∨
      ((outcome.passed_open || outcome.fell_back) && outcome.admitted counter_key rule last) = true := by
    intro outcome houtcome hadmitted
    rcases admitted_cases hbegins hcalls houtcome hadmitted with hserved | hopen | hback
    · exact Or.inl hserved
    · exact Or.inr (by simp [hopen, hadmitted])
    · exact Or.inr (by simp [hback, hadmitted])
  have hfailed : ∀ outcome ∈ self.run lib tostring calls,
      ((outcome.passed_open || outcome.fell_back) && outcome.admitted counter_key rule last) = true →
      (outcome.passed_open && outcome.admitted counter_key rule last) = true ∨
        (outcome.fell_back && outcome.admitted counter_key rule last) = true := by
    intro outcome _ hfailed
    rwa [Bool.and_or_distrib_right, Bool.or_eq_true] at hfailed
  calc (self.run lib tostring calls).countP (·.admitted counter_key rule last)
      ≤ _ + _ := countP_le_add hanswered
    _ ≤ rule.count.toNat + (_ + _) :=
        Nat.add_le_add hserved ((countP_le_add hfailed).trans (Nat.add_le_add_left hlocal _))
    _ = _ := by
      rw [List.filter_filter, List.filter_filter, ← List.countP_eq_length_filter, Nat.add_assoc]

/-- What an outage lets through. In every window, however the calls interleave
    and whichever of them the server does not answer, the admitted hits of a
    counter number at most the limit for the server, the limit again for each
    worker that counted in its own memory, and the failed calls of the workers
    that are open, as long as no clean-up takes the counter and the fallbacks have
    room. Workers that are closed add nothing. -/
theorem outage_limit (hbegins : self.Begins keyspace key_hash known)
    (hcalls : Undisturbed calls counter_key rule known offset)
    (huuids : (calls.map (fun call => call.env.uuid)).Nodup)
    (hrule : ∀ hit ∈ self.run lib tostring calls, hit.call.access.hits counter_key = true →
      ∀ outcome ∈ self.run lib tostring calls, outcome.counter_key lib.hexdigest = hit.counter_key lib.hexdigest →
        outcome.Carries rule) (last : ℚ) :
    let admitted := (self.run lib tostring calls).filter (·.admitted counter_key rule last)
    admitted.length ≤ rule.count.toNat + (admitted.filter ClusterOutcome.passed_open).length +
      ((admitted.filter ClusterOutcome.fell_back).map (fun outcome => outcome.call.worker)).dedup.length *
        rule.count.toNat := by
  intro admitted
  rw [← List.countP_eq_length_filter]
  exact admitted_countP_le hbegins hcalls huuids hrule last

/-- One worker of each failure mode. -/
def one_of_each : Cluster PlainValue where
  server _ := none
  workers worker :=
    { RedisStorage.default with
      counter_failure_mode :=
        match worker with
        | 0 => .fail_open
        | 1 => .local_memory_fallback
        | _ => .fail_closed }

/-- A hit that the server answers and, when it no longer does, two by each worker. -/
def outage : List (ClusterCall PlainValue) :=
  let hit := Operation.record_hit "10.0.0.1" "item" 0 Rule.one_per_minute.window_seconds
    (some (Rule.one_per_minute.count + 1))
  ⟨0, .healthy 0 "a", hit⟩ :: [(0, 1, "b"), (1, 2, "c"), (2, 3, "d"), (0, 4, "e"), (1, 5, "f"), (2, 6, "g")].map
    (fun (worker, now, uuid) => ⟨worker, { Environment.healthy now uuid with fault := .before }, hit⟩)

/-- The hits that are admitted in the first minute of the outage. -/
def admitted_in_outage : List (ClusterOutcome PlainValue) :=
  (one_of_each.run .plain id outage).filter (·.admitted ("10.0.0.1", "item", 0) .one_per_minute 59)

theorem outage_limit_one_of_each :
    admitted_in_outage.map (fun outcome => outcome.call.env.uuid) = ["a", "b", "c", "e"] ∧
      admitted_in_outage.length ≤ 1 + (admitted_in_outage.filter ClusterOutcome.passed_open).length +
        ((admitted_in_outage.filter ClusterOutcome.fell_back).map
          (fun outcome => outcome.call.worker)).dedup.length * 1 := by
  refine ⟨by decide +kernel, ?_⟩
  have hbegins : one_of_each.Begins "rbl" false {("10.0.0.1", "item", 0)} :=
    ⟨fun _ => ⟨rfl, rfl⟩, fun _ => rfl, fun _ => rfl, fun _ => rfl, fun _ => PNat.pos _⟩
  have hoperation : ∀ call ∈ outage, call.operation = .record_hit "10.0.0.1" "item" 0
      Rule.one_per_minute.window_seconds (some (Rule.one_per_minute.count + 1)) := by
    intro call hcall
    simp only [outage, List.map_cons, List.map_nil, List.mem_cons, List.not_mem_nil, or_false] at hcall
    rcases hcall with rfl | rfl | rfl | rfl | rfl | rfl | rfl <;> rfl
  have hcalls : Undisturbed outage ("10.0.0.1", "item", 0) .one_per_minute {("10.0.0.1", "item", 0)}
      (fun _ => 0) := by
    refine ⟨by decide +kernel, by decide +kernel, fun call hcall query hquery => ?_,
      fun call hcall _ => hoperation call hcall, fun call hcall => ?_⟩
    · simp only [ClusterCall.access, Access.hits, hoperation call hcall, decide_eq_true_eq] at hquery
      simp [← hquery]
    · simp only [Access.Keeps, ClusterCall.access, hoperation call hcall]
  refine @outage_limit PlainValue _ .plain id one_of_each outage "rbl" false
    ("10.0.0.1", "item", 0) .one_per_minute _ _
    hbegins hcalls (by decide +kernel) ?_ 59
  intro hit hmem hhits outcome houtcome hkey
  exact ⟨_, _, _, hoperation _ (call_mem houtcome)⟩

end Cluster

end response_bandwidth_limiter.redis

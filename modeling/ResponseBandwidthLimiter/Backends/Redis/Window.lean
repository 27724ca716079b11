import ResponseBandwidthLimiter.Backends.Redis.Storage
import ResponseBandwidthLimiter.Backends.Memory.Counters
import ResponseBandwidthLimiter.Collections.Runs
import ResponseBandwidthLimiter.Policy

open collections sliding_window
open response_bandwidth_limiter.base response_bandwidth_limiter.memory
open response_bandwidth_limiter.memory.InMemoryStorage

namespace response_bandwidth_limiter.redis

/-- Texts keep the times a counter deals in, and thresholds keep their place
    among those times. -/
structure Numerals.Faithful (numerals : Numerals) (window_seconds : ℤ) (Known : ℚ → Prop) : Prop where
  argument_eq : ∀ time, Known time → numerals.argument time = time
  score_eq : ∀ time, Known time → numerals.score time = time
  threshold_lt : ∀ now time, Known now → Known time →
    (numerals.argument (now - window_seconds) < time ↔ now - window_seconds < time)

theorem Numerals.exact_faithful (tostring : ℚ → ℚ) (window_seconds : ℤ) :
    (Numerals.exact tostring).Faithful window_seconds (fun _ => True) where
  argument_eq _ _ := rfl
  score_eq _ _ := rfl
  threshold_lt _ _ _ _ := Iff.rfl

/-- The rank at which the script looks up the retry hit. -/
def retry_rank (max_hits : ℤ) (hit_count : Nat) : Nat :=
  if 1 < max_hits ∧ max_hits ≤ hit_count then ((hit_count : ℤ) - max_hits + 1).toNat else 0

theorem retry_rank_lt (max_hits : ℤ) {hit_count : Nat} (hpos : 0 < hit_count) :
    retry_rank max_hits hit_count < hit_count := by
  unfold retry_rank
  split_ifs with hcapped <;> omega

/-- The evaluator's retry hit in memory stands at the script's rank. -/
theorem retry_hit_hit_result (now : ℚ) (max_hits : Option ℤ) (history : List ℚ) :
    policy.retry_hit (hit_result now max_hits history) =
      history[retry_rank (max_hits.getD 0) history.length]? := by
  cases max_hits with
  | none => simp [policy.retry_hit, hit_result, retry_after_timestamp, retry_rank, List.head?_eq_getElem?]
  | some limit =>
    simp only [policy.retry_hit, hit_result, retry_after_timestamp, retry_rank, Option.getD_some]
    by_cases hcapped : 1 < limit ∧ limit ≤ history.length
    · rw [dif_pos hcapped, if_pos hcapped, Option.some_or, List.get_eq_getElem, List.getElem?_eq_getElem]
    · rw [dif_neg hcapped, if_neg hcapped, Option.none_or, List.head?_eq_getElem?]

/-- The bound that an evaluation passes leaves room for the hit that makes it
    fail. -/
theorem two_le_cap (rule : models.Rule) : ∀ limit ∈ some (rule.count + 1), 2 ≤ limit := by
  intro limit hlimit
  have hpos := rule.count_pos
  rw [Option.mem_def, Option.some.injEq] at hlimit
  omega

section Script

variable {numerals : Numerals} {window_seconds : ℤ} {Known : ℚ → Prop} {now : ℚ} {counter : Counter}
  {member : String} {max_hits : Option ℤ}

/-- The sorted set after the script holds the sliding window's history. -/
theorem sliding_window_script_scores (hfaithful : numerals.Faithful window_seconds Known) (hnow : Known now)
    (hscores : ∀ time ∈ counter.scores, Known time ∧ time ≤ now) (hnew : member ∉ counter.members)
    (hmax : ∀ limit ∈ max_hits, 2 ≤ limit) :
    (sliding_window_script numerals now counter window_seconds member (max_hits.getD 0)).2.1.scores =
      record (window_seconds : ℚ) (capacity max_hits) counter.scores now := by
  have hkept : (counter.zremrangebyscore (numerals.argument (now - window_seconds))).scores =
      prune (now - window_seconds) counter.scores := by
    rw [SortedSet.scores_zremrangebyscore, prune_eq_filter counter.scores_sorted]
    apply List.filter_congr
    intro time htime
    rw [decide_eq_decide]
    exact hfaithful.threshold_lt now time hnow (hscores time htime).1
  have hadded : ((counter.zremrangebyscore (numerals.argument (now - window_seconds))).zadd
      (numerals.argument now) member).scores = prune (now - window_seconds) counter.scores ++ [now] := by
    rw [hfaithful.argument_eq now hnow, SortedSet.scores_zadd_of_le, hkept]
    · exact fun hmem => hnew (counter.members_zremrangebyscore_subset _ hmem)
    · intro other hother
      rw [hkept] at hother
      exact (hscores other ((prune_sublist _ _).subset hother)).2
  have hroom : (max_hits.getD 0 ≤ 0 ∨
      ((counter.zremrangebyscore (numerals.argument (now - window_seconds))).zcard : ℤ) < max_hits.getD 0) ↔
      has_room (capacity max_hits) (prune (now - window_seconds) counter.scores).length = true := by
    rw [SortedSet.zcard_eq_length, hkept]
    cases max_hits with
    | none => simp [capacity, has_room]
    | some limit =>
      have hlimit := hmax limit rfl
      simp only [capacity, has_room, Option.getD_some, Option.map_some, decide_eq_true_eq]
      omega
  simp only [sliding_window_script, hroom, record]
  split_ifs
  · exact hadded
  · exact hkept

theorem sliding_window_script_members (numerals : Numerals) (now : ℚ) (counter : Counter) (window_seconds : ℤ)
    (member : String) (max_hits : ℤ) :
    (sliding_window_script numerals now counter window_seconds member max_hits).2.1.members ⊆
      member :: counter.members := by
  have hkept := counter.members_zremrangebyscore_subset (numerals.argument (now - window_seconds))
  simp only [sliding_window_script]
  split_ifs
  · exact List.Subset.trans (SortedSet.members_zadd_subset _ _ _) (List.cons_subset_cons _ hkept)
  · exact List.Subset.trans hkept (List.subset_cons_self _ _)

/-- The script's reply in terms of the history it leaves: all ranks it looks up
    exist, so none of its texts is missing. -/
theorem sliding_window_script_reply (hfaithful : numerals.Faithful window_seconds Known) (hnow : Known now)
    (hscores : ∀ time ∈ counter.scores, Known time ∧ time ≤ now) (hnew : member ∉ counter.members)
    (hmax : ∀ limit ∈ max_hits, 2 ≤ limit) {stored : List ℚ}
    (hstored : record (window_seconds : ℚ) (capacity max_hits) counter.scores now = stored) :
    ∃ oldest retry,
      (sliding_window_script numerals now counter window_seconds member (max_hits.getD 0)).1 =
        ⟨stored.length, [.number oldest, .number (numerals.tostring now), .number retry]⟩ ∧
      (hit_result now max_hits stored).oldest_timestamp = some oldest ∧
      policy.retry_hit (hit_result now max_hits stored) = some retry := by
  have hleft := sliding_window_script_scores hfaithful hnow hscores hnew hmax
  rw [hstored] at hleft
  have hknown : ∀ time ∈ stored, Known time := by
    intro time htime
    rw [← hstored] at htime
    rcases mem_of_mem_record htime with hmem | rfl
    · exact (hscores time hmem).1
    · exact hnow
  have hpos : 0 < stored.length := by
    rw [List.length_pos_iff, ← hstored]
    apply record_ne_nil
    intro limit hlimit
    obtain ⟨given, hgiven, rfl⟩ := Option.map_eq_some_iff.mp hlimit
    have := hmax given hgiven
    omega
  have hretry := retry_rank_lt (max_hits.getD 0) hpos
  refine ⟨stored[0], stored[retry_rank (max_hits.getD 0) stored.length], ?_, ?_, ?_⟩
  · simp only [sliding_window_script, SortedSet.zcard_eq_length, SortedSet.zrange_score] at hleft ⊢
    simp only [hleft, List.getElem?_eq_getElem hpos]
    change ScriptReply.mk _ [_, _, tostring_score numerals stored[retry_rank (max_hits.getD 0) stored.length]?] = _
    rw [List.getElem?_eq_getElem hretry, tostring_score,
      hfaithful.score_eq _ (hknown _ (List.getElem_mem hpos)),
      hfaithful.score_eq _ (hknown _ (List.getElem_mem hretry))]
  · rw [hit_result, List.head?_eq_getElem?, List.getElem?_eq_getElem hpos]
  · rw [retry_hit_hit_result, List.getElem?_eq_getElem hretry]

end Script

/-- A parsed reply reports what it was given. -/
theorem parse_hit_result_numbers (hit_count : Nat) (oldest current retry : ℚ) :
    parse_hit_result ⟨hit_count, [.number oldest, .number current, .number retry]⟩ =
      .ok { hit_count, oldest_timestamp := some oldest, current_timestamp := current,
            retry_after_timestamp := some retry } := rfl

/-- What the key of a counter holds once `before` calls were made: nothing
    before the first one, then the history, with an expiry no earlier than the
    window of the last one. -/
structure Mirrors (Known : ℚ → Prop) (counter_key : String) (window_seconds : ℤ) (before : List Environment)
    (server : Server) (history : List ℚ) : Prop where
  absent : before = [] → server counter_key = none ∧ history = []
  present : ∀ last ∈ before.getLast?, ∃ counter : Counter,
    server counter_key =
      some ⟨.sorted_set counter, some (last.server_time + (max 1 window_seconds : ℤ))⟩ ∧
    counter.scores = history ∧ (∀ member ∈ counter.members, member ∈ before.map Environment.uuid) ∧
    ∀ time ∈ history, Known time ∧ time ≤ last.server_time

section Run

variable {V : Type} {numerals : Numerals} {window_seconds : ℤ} {Known : ℚ → Prop}
  {max_hits : Option ℤ} {counter_key : String} {before : List Environment} {env : Environment}
  {server : Server} {history : List ℚ}

/-- What the script finds before a call: the history, unless the key has
    expired, in which case the window has passed over all of it. -/
theorem Mirrors.found (hmirrors : Mirrors Known counter_key window_seconds before server history)
    (max_hits : Option ℤ)
    (hlater : ∀ earlier ∈ before, earlier.server_time ≤ env.server_time) :
    ∃ counter : Counter, (server.expire_keys env.toContact).counter counter_key = some counter ∧
      (∀ member ∈ counter.members, member ∈ before.map Environment.uuid) ∧
      (∀ time ∈ counter.scores, Known time ∧ time ≤ env.server_time) ∧
      record (window_seconds : ℚ) (capacity max_hits) counter.scores env.server_time =
        record (window_seconds : ℚ) (capacity max_hits) history env.server_time := by
  cases hlast : before.getLast? with
  | none =>
    obtain ⟨hserver, rfl⟩ := hmirrors.absent (List.getLast?_eq_none_iff.mp hlast)
    exact ⟨.empty, by simp [Server.counter, Server.expire_keys, hserver], by simp, by simp, rfl⟩
  | some last =>
    obtain ⟨counter, hserver, hscores, hmembers, hbound⟩ := hmirrors.present last hlast
    have hle := hlater last (List.mem_of_getLast? hlast)
    rcases Server.expire_keys_of_some hserver env.toContact with hkept | ⟨hnone, hdead⟩
    · refine ⟨counter, by rw [Server.counter, hkept], hmembers, ?_, by rw [hscores]⟩
      intro time htime
      obtain ⟨hknown, htimele⟩ := hbound time (hscores ▸ htime)
      exact ⟨hknown, htimele.trans hle⟩
    · -- The key is gone, so its expiry has passed and the window with it.
      have hexpired : last.server_time + (max 1 window_seconds : ℤ) ≤ env.server_time := by
        simpa [Timed.alive] using hdead
      refine ⟨.empty, by simp [Server.counter, hnone], by simp, by simp, ?_⟩
      have hwindow : (window_seconds : ℚ) ≤ (max 1 window_seconds : ℤ) := by
        exact_mod_cast le_max_right 1 window_seconds
      have hold : prune (env.server_time - window_seconds) history = [] := by
        apply prune_eq_nil_of_le
        intro time htime
        have hbefore := (hbound time htime).2
        linarith
      rw [record, record, hold, SortedSet.scores_empty, prune_nil]

/-- What the script leaves behind mirrors the history with the new hit. -/
theorem Mirrors.concat {found left : Counter} {stored : List ℚ} (hknown : Known env.server_time)
    (hscores : ∀ time ∈ found.scores, Known time ∧ time ≤ env.server_time) (hleft : left.scores = stored)
    (hstored : record (window_seconds : ℚ) (capacity max_hits) found.scores env.server_time = stored)
    (hmembers : ∀ member ∈ left.members, member = env.uuid ∨ member ∈ before.map Environment.uuid) :
    Mirrors Known counter_key window_seconds (before ++ [env])
      (Function.update server counter_key
        (some ⟨.sorted_set left, some (env.server_time + (max 1 window_seconds : ℤ))⟩)) stored := by
  refine ⟨by simp, ?_⟩
  intro last hlast
  rw [List.getLast?_concat, Option.mem_def, Option.some.injEq] at hlast
  subst hlast
  refine ⟨_, Function.update_self _ _ _, hleft, ?_, ?_⟩
  · intro member hmember
    rw [List.map_append, List.mem_append]
    rcases hmembers member hmember with rfl | hmem
    · exact Or.inr (by simp)
    · exact Or.inl hmem
  · intro time htime
    rw [← hstored] at htime
    rcases mem_of_mem_record htime with hmem | rfl
    · exact hscores time hmem
    · exact ⟨hknown, le_refl _⟩

variable {hexdigest : String → String} {request_key handler_name : String} {rule_index : Nat}

/-- One healthy call on a counter and the call on memory stay in step. -/
theorem eval_hit_mirrors (hfaithful : numerals.Faithful window_seconds Known)
    (hmax : ∀ limit ∈ max_hits, 2 ≤ limit) {storage : RedisStorage V}
    (hkey : storage.build_counter_key hexdigest request_key handler_name rule_index = counter_key)
    (hmirrors : Mirrors Known counter_key window_seconds before storage.client history)
    (hlater : ∀ earlier ∈ before, earlier.server_time ≤ env.server_time)
    (hfresh : env.uuid ∉ before.map Environment.uuid) (hknown : Known env.server_time)
    (hhealthy : env.fault = .none) {stored : List ℚ}
    (hstored : record (window_seconds : ℚ) (capacity max_hits) history env.server_time = stored) :
    ∃ oldest retry client,
      storage.eval_hit hexdigest numerals env request_key handler_name rule_index window_seconds max_hits =
        (some ⟨stored.length, [.number oldest, .number (numerals.tostring env.server_time), .number retry]⟩,
          { storage with client }) ∧
      (hit_result env.server_time max_hits stored).oldest_timestamp = some oldest ∧
      policy.retry_hit (hit_result env.server_time max_hits stored) = some retry ∧
      Mirrors Known counter_key window_seconds (before ++ [env]) client stored := by
  obtain ⟨counter, hcounter, hmembers, hscores, hsame⟩ := hmirrors.found max_hits hlater
  rw [hstored] at hsame
  have hnew : env.uuid ∉ counter.members := fun hmem => hfresh (hmembers _ hmem)
  have hleft := sliding_window_script_scores hfaithful hknown hscores hnew hmax
  have hsubset := sliding_window_script_members numerals env.server_time counter window_seconds env.uuid
    (max_hits.getD 0)
  obtain ⟨oldest, retry, hreply, holdest, hretry⟩ :=
    sliding_window_script_reply hfaithful hknown hscores hnew hmax hsame
  let result :=
    sliding_window_script numerals env.server_time counter window_seconds env.uuid (max_hits.getD 0)
  refine ⟨oldest, retry, Function.update (storage.client.expire_keys env.toContact) counter_key
    (some ⟨.sorted_set result.2.1, some (env.server_time + result.2.2)⟩), ?_, holdest, hretry, ?_⟩
  · simp only [RedisStorage.eval_hit, RedisStorage.send, hkey, Server.call_of_healthy hhealthy,
      Server.eval_of_counter hcounter, hreply]
    rfl
  · exact .concat hknown hscores (hleft.trans hsame) hsame
      (fun member hmember => (List.mem_cons.mp (hsubset hmember)).imp_right (hmembers member))

end Run

section Refinement

variable {V : Type} (hexdigest : String → String) (numerals : Numerals) (request_key handler_name : String)
  (rule_index : Nat) (window_seconds : ℤ) (max_hits : Option ℤ)

/-- A `record_hit` call on Redis: the script's reply and the result. -/
def redis_hit (storage : RedisStorage V) (env : Environment) :
    (Option ScriptReply × Except PyError SlidingWindowResult) × RedisStorage V :=
  let (reply, _) :=
    storage.eval_hit hexdigest numerals env request_key handler_name rule_index window_seconds max_hits
  let (result, next) :=
    storage.record_hit hexdigest numerals env request_key handler_name rule_index window_seconds max_hits
  ((reply, result), next)

/-- The same call on memory, at the same time. -/
def memory_hit (storage : InMemoryStorage V) (env : Environment) :
    Except PyError SlidingWindowResult × InMemoryStorage V :=
  storage.record_hit env.server_time request_key handler_name rule_index window_seconds max_hits

/-- Both storages report the same count and the same oldest hit, and the
    evaluator reads the same retry hit from both. The script's reply has a
    number in every field. -/
def SameHit (redis : Option ScriptReply × Except PyError SlidingWindowResult)
    (memory : Except PyError SlidingWindowResult) : Prop :=
  ∃ remote own : SlidingWindowResult, redis.2 = .ok remote ∧ memory = .ok own ∧
    remote.hit_count = own.hit_count ∧ remote.oldest_timestamp = own.oldest_timestamp ∧
    policy.retry_hit remote = policy.retry_hit own ∧
    remote.current_timestamp = numerals.tostring own.current_timestamp ∧
    ∃ oldest current retry,
      redis.1 = some ⟨remote.hit_count, [.number oldest, .number current, .number retry]⟩

/-- Both storages as they are after the calls `before`. -/
structure InStep (Known : ℚ → Prop) (counter_key : String) (before : List Environment)
    (redis : RedisStorage V) (memory : InMemoryStorage V) : Prop where
  key : redis.build_counter_key hexdigest request_key handler_name rule_index = counter_key
  mirrors : Mirrors Known counter_key window_seconds before redis.client
    (memory.history (request_key, handler_name, rule_index))
  replayed : memory.history (request_key, handler_name, rule_index) =
    replay (window_seconds : ℚ) (capacity max_hits) [] (before.map (fun env => env.server_time))
  room : (request_key, handler_name, rule_index) ∈ memory.request_counters.keys ∨
    memory.request_counters.size < memory.max_counters

variable {hexdigest numerals request_key handler_name rule_index window_seconds max_hits}
variable {Known : ℚ → Prop} {counter_key : String} {before : List Environment} {env : Environment}
  {redis : RedisStorage V} {memory : InMemoryStorage V}

theorem validate_max_hits_of_two_le (hmax : ∀ limit ∈ max_hits, 2 ≤ limit) :
    validate_max_hits max_hits = .ok () := by
  cases max_hits with
  | none => rfl
  | some limit =>
    have hlimit := hmax limit rfl
    exact validate_limit_ok_iff.mpr (by omega)

/-- The step lemma of the simulation. -/
theorem InStep.hit (hfaithful : numerals.Faithful window_seconds Known)
    (hmax : ∀ limit ∈ max_hits, 2 ≤ limit)
    (hstep : InStep hexdigest request_key handler_name rule_index window_seconds max_hits Known counter_key before
      redis memory)
    (hlater : ∀ earlier ∈ before, earlier.server_time ≤ env.server_time)
    (hfresh : env.uuid ∉ before.map Environment.uuid) (hknown : Known env.server_time)
    (hhealthy : env.fault = .none) :
    let remote := redis_hit hexdigest numerals request_key handler_name rule_index window_seconds max_hits
      redis env
    let own := memory_hit request_key handler_name rule_index window_seconds max_hits memory env
    SameHit numerals remote.1 own.1 ∧
      InStep hexdigest request_key handler_name rule_index window_seconds max_hits Known counter_key
        (before ++ [env]) remote.2 own.2 := by
  obtain ⟨oldest, retry, client, heval, holdest, hretry, hmirrors⟩ :=
    eval_hit_mirrors hfaithful hmax hstep.key hstep.mirrors hlater hfresh hknown hhealthy rfl
  have hmemory := memory.record_hit_eq env.server_time request_key handler_name rule_index window_seconds
    (validate_max_hits_of_two_le hmax) hstep.room
  simp only [redis_hit, memory_hit, RedisStorage.record_hit, heval, hmemory, parse_hit_result_numbers]
  refine ⟨⟨_, _, rfl, rfl, rfl, holdest.symm, ?_, rfl, oldest, _, retry, rfl⟩, ?_⟩
  · rw [hretry]
    rfl
  · refine ⟨hstep.key, ?_, ?_, Or.inl ?_⟩
    · rw [history_store_history_self]
      exact hmirrors
    · rw [history_store_history_self, hstep.replayed, List.map_append, replay_append]
      rfl
    · simp [store_history, OrderedDict.mem_keys_set]

/-- The run lemma: on one counter, with any faithful numerals, a healthy Redis
    and memory stay in step. -/
theorem record_hit_in_step (hfaithful : numerals.Faithful window_seconds Known)
    (hmax : ∀ limit ∈ max_hits, 2 ≤ limit) {envs : List Environment}
    (hmono : envs.Pairwise (fun earlier later => earlier.server_time ≤ later.server_time))
    (huuids : (envs.map Environment.uuid).Nodup) (hknown : ∀ env ∈ envs, Known env.server_time)
    (hhealthy : ∀ env ∈ envs, env.fault = .none) (max_keys max_counters : ℕ+) {storage : RedisStorage V}
    (hkey : storage.build_counter_key hexdigest request_key handler_name rule_index = counter_key)
    (habsent : storage.client counter_key = none) :
    let remote := redis_hit hexdigest numerals request_key handler_name rule_index window_seconds max_hits
    let own := memory_hit request_key handler_name rule_index window_seconds max_hits
    List.Forall₂ (SameHit numerals) (outputs remote storage envs)
        (outputs own (fresh max_keys max_counters : InMemoryStorage V) envs) ∧
      InStep hexdigest request_key handler_name rule_index window_seconds max_hits Known counter_key envs
        (settle remote storage envs) (settle own (fresh max_keys max_counters) envs) := by
  apply simulation
  · refine ⟨hkey, ⟨fun _ => ⟨habsent, rfl⟩, by simp⟩, rfl, Or.inr ?_⟩
    exact max_counters.pos
  · intro before env rest henvs redis memory hstep
    subst henvs
    obtain ⟨_, _, hlater⟩ := List.pairwise_append.mp hmono
    rw [List.map_append, List.nodup_append] at huuids
    refine hstep.hit hfaithful hmax (fun earlier hearlier => hlater earlier hearlier env (by simp)) ?_
      (hknown env (by simp)) (hhealthy env (by simp))
    intro hmem
    exact huuids.2.2 _ hmem _ (by simp) rfl

end Refinement

/-- The Redis sliding window refines the in-memory one. For every sequence of
    hits on one counter at the same exact times, with one window and one cap,
    both storages report the same count and oldest hit, the evaluator obtains
    the same retry hit, and no rank the script looks up is out of range. An
    expired key may vanish before any call; `tostring` may print the current
    time in any way. -/
theorem RedisStorage.record_hit_refines_memory {V : Type} (hexdigest : String → String) (tostring : ℚ → ℚ)
    (request_key handler_name : String) (rule_index : Nat) (window_seconds : ℤ) {max_hits : Option ℤ}
    (hmax : ∀ limit ∈ max_hits, 2 ≤ limit) {envs : List Environment}
    (hmono : envs.Pairwise (fun earlier later => earlier.server_time ≤ later.server_time))
    (huuids : (envs.map Environment.uuid).Nodup) (hhealthy : ∀ env ∈ envs, env.fault = .none)
    (max_keys max_counters : ℕ+) (storage : RedisStorage V)
    (habsent : storage.client (storage.build_counter_key hexdigest request_key handler_name rule_index) = none) :
    List.Forall₂ (SameHit (Numerals.exact tostring))
        (outputs (redis_hit hexdigest (Numerals.exact tostring) request_key handler_name rule_index window_seconds
          max_hits) storage envs)
        (outputs (memory_hit request_key handler_name rule_index window_seconds max_hits)
          (fresh max_keys max_counters : InMemoryStorage V) envs) :=
  (record_hit_in_step (Numerals.exact_faithful tostring window_seconds) hmax hmono huuids (fun _ _ => trivial)
    hhealthy max_keys max_counters rfl habsent).1

/-- Two hits within a minute and one after the key has expired. -/
def three_hits : List Environment :=
  [.healthy 0 "a1", .healthy 59 "b2", .healthy 130 "c3"]

theorem RedisStorage.three_hits_refine :
    List.Forall₂ (SameHit (Numerals.exact id))
      (outputs (redis_hit id (Numerals.exact id) "192.0.2.1" "download" 0 60 (some 2))
        (RedisStorage.default : RedisStorage PlainValue) three_hits)
      (outputs (memory_hit "192.0.2.1" "download" 0 60 (some 2)) (fresh 1 1 : InMemoryStorage PlainValue)
        three_hits) :=
  RedisStorage.record_hit_refines_memory id id "192.0.2.1" "download" 0 60 (by decide) (by decide) (by decide)
    (by decide) 1 1 RedisStorage.default rfl

end response_bandwidth_limiter.redis

import ResponseBandwidthLimiter.Backends.Memory.Coverage
import ResponseBandwidthLimiter.Backends.Redis.Cluster
import ResponseBandwidthLimiter.Backends.Redis.RetryAfter
import ResponseBandwidthLimiter.PolicyChanges

open collections sliding_window
open response_bandwidth_limiter.base response_bandwidth_limiter.models response_bandwidth_limiter.memory
open response_bandwidth_limiter.memory.InMemoryStorage
open response_bandwidth_limiter.limiter response_bandwidth_limiter.counter_keys

namespace response_bandwidth_limiter.policy

/-- An evaluation goes on alike with results of a hit that get one verdict. -/
theorem resume_eq_of_verdict {evaluation : Evaluation} {request_key : String} {rule_index : Nat} {rule : Rule}
    (hnext : evaluation.next = .record_hit request_key rule_index rule) {first second : SlidingWindowResult}
    (hverdict : verdict rule first = verdict rule second) :
    evaluation.resume first = evaluation.resume second := by
  unfold Evaluation.next at hnext
  unfold Evaluation.resume
  split at hnext
  · cases hnext
  · split at hnext
    · cases hnext
    · cases hnext
      simp only [count_rule_eq_append, hverdict]

end response_bandwidth_limiter.policy

namespace response_bandwidth_limiter.counter_keys

/-- Handlers whose names have no colon do not share counters. -/
theorem redisIsolated_of_field {V : Type} {hexdigest : String → String} {key_hash : Bool}
    (htails : ∀ first second, key_tail hexdigest key_hash first = key_tail hexdigest key_hash second →
      first = second)
    {first second : String} (hfirst : Field first) (hsecond : Field second) :
    RedisIsolated V hexdigest key_hash first second := by
  rw [redisIsolated_iff_join]
  intro x y heq
  obtain ⟨hname, htail⟩ := (hfirst.join_left_inj hsecond).mp heq
  exact ⟨hname, redis_tail_injective htails x y htail⟩

end response_bandwidth_limiter.counter_keys

namespace response_bandwidth_limiter.redis

/-- A key of the server holds the hits of a history, as far as the windows reach
    that end at a time or later. The members were drawn before, and the times are
    of a kind. -/
structure Server.Holds (Known : ℚ → Prop) (server : Server) (key : String) (window_seconds : ℤ) (now : ℚ) (drawn : List String)
    (history : List ℚ) : Prop where
  stored : ∃ counter : Counter, counter.members ⊆ drawn ∧ (∀ time ∈ counter.scores, Known time ∧ time ≤ now) ∧
    (∀ later, now ≤ later →
      prune (later - window_seconds) counter.scores = prune (later - window_seconds) history) ∧
    ((server key = none ∧ counter = .empty) ∨ ∃ expires_at, server key = some ⟨.sorted_set counter, some expires_at⟩ ∧
      ∀ time ∈ counter.scores, time + window_seconds ≤ expires_at)

namespace Server

variable {Known : ℚ → Prop} {self other : Server} {key : String} {window_seconds : ℤ} {now : ℚ}
  {drawn : List String} {history : List ℚ}

theorem Holds.of_absent (habsent : self key = none) (window_seconds : ℤ) (now : ℚ) (drawn : List String) :
    self.Holds Known key window_seconds now drawn [] :=
  ⟨.empty, by simp, by simp, fun _ _ => by rw [SortedSet.scores_empty], Or.inl ⟨habsent, rfl⟩⟩

theorem Holds.congr (h : self.Holds Known key window_seconds now drawn history) (hsame : other key = self key) :
    other.Holds Known key window_seconds now drawn history := by
  obtain ⟨counter, hmembers, hscores, hprune, hstored⟩ := h.stored
  exact ⟨counter, hmembers, hscores, hprune, hsame ▸ hstored⟩

theorem Holds.wait (h : self.Holds Known key window_seconds now drawn history) {later : ℚ} (hle : now ≤ later) :
    self.Holds Known key window_seconds later drawn history := by
  obtain ⟨counter, hmembers, hscores, hprune, hstored⟩ := h.stored
  exact ⟨counter, hmembers, fun time htime => ⟨(hscores time htime).1, (hscores time htime).2.trans hle⟩,
    fun last hlast => hprune last (hle.trans hlast), hstored⟩

theorem Holds.draw (h : self.Holds Known key window_seconds now drawn history) (uuid : String) :
    self.Holds Known key window_seconds now (drawn ++ [uuid]) history := by
  obtain ⟨counter, hmembers, hscores, hprune, hstored⟩ := h.stored
  exact ⟨counter, List.subset_append_of_subset_left _ hmembers, hscores, hprune, hstored⟩

/-- Hits that have left the window may be missing from the history. -/
theorem Holds.prune (h : self.Holds Known key window_seconds now drawn history) :
    self.Holds Known key window_seconds now drawn (prune (now - window_seconds) history) := by
  obtain ⟨counter, hmembers, hscores, hprune, hstored⟩ := h.stored
  refine ⟨counter, hmembers, hscores, fun later hle => ?_, hstored⟩
  rw [hprune later hle, prune_prune_of_le _ (sub_le_sub_right hle _)]

theorem Holds.expire_keys (h : self.Holds Known key window_seconds now drawn history) (contact : Contact)
    (hle : now ≤ contact.server_time) :
    (self.expire_keys contact).Holds Known key window_seconds contact.server_time drawn history := by
  obtain ⟨counter, hmembers, hscores, hprune, hkept⟩ := h.stored
  rcases expire_keys_of_stored hkept contact with hsame | ⟨hgone, hpassed⟩
  · exact (h.wait hle).congr hsame
  · refine ⟨.empty, by simp, by simp, fun later hlast => ?_, Or.inl ⟨hgone, rfl⟩⟩
    rw [← hprune later (hle.trans hlast), SortedSet.scores_empty, prune_nil, eq_comm]
    apply prune_eq_nil_of_le
    intro time htime
    linarith [hpassed time htime]

/-- The server's counter has the history's hits in order, as far as the windows
    reach. -/
theorem Holds.counter (h : self.Holds Known key window_seconds now drawn history) :
    ∃ counter : Counter, self.counter key = some counter ∧ (∀ time ∈ counter.scores, time ≤ now) ∧
      ∀ later, now ≤ later →
        sliding_window.prune (later - window_seconds) counter.scores =
          sliding_window.prune (later - window_seconds) history := by
  obtain ⟨counter, -, hscores, hprune, hkept⟩ := h.stored
  refine ⟨counter, ?_, fun time htime => (hscores time htime).2, hprune⟩
  rcases hkept with ⟨habsent, rfl⟩ | ⟨expires_at, hpresent, -⟩
  · simp only [Server.counter, habsent]
  · simp only [Server.counter, hpresent]

/-- The script finds the history and leaves it with the new hit, and its reply
    tells an evaluation the same as the result in memory, but for the print of
    the time. -/
theorem Holds.eval {numerals : Numerals} (hfaithful : numerals.Faithful window_seconds Known) (hnow : Known now)
    (h : self.Holds Known key window_seconds now drawn history) {max_hits : Option ℤ}
    (hmax : ∀ limit ∈ max_hits, 2 ≤ limit) {uuid : String} (hfresh : uuid ∉ drawn) {stored : List ℚ}
    (hstored : record (window_seconds : ℚ) (capacity max_hits) history now = stored) :
    ∃ (next : Server) (oldest retry : ℚ),
      Server.eval numerals now key window_seconds uuid (max_hits.getD 0) self =
        (some ⟨stored.length, [.number oldest, .number (numerals.tostring now), .number retry]⟩, next) ∧
      policy.retry_hit (hit_result now max_hits stored) = some retry ∧
      next.Holds Known key window_seconds now (drawn ++ [uuid]) stored := by
  obtain ⟨counter, hmembers, hscores, hprune, hkept⟩ := h.stored
  have hsame : record (window_seconds : ℚ) (capacity max_hits) counter.scores now = stored := by
    rw [← hstored]
    exact record_congr (hprune now (le_refl now)) _
  obtain ⟨next, oldest, retry, left, heval, hretry, hleft, hdrawn, expires_at, hpresent, hexpires⟩ :=
    eval_of_stored hfaithful hnow hkept hmembers hscores hfresh hmax hsame
  refine ⟨next, oldest, retry, heval, hretry, left, hdrawn, fun time htime => ?_, fun later _ => by rw [hleft],
    Or.inr ⟨expires_at, hpresent, hleft ▸ hexpires⟩⟩
  rw [hleft, ← hsame] at htime
  rcases mem_of_mem_record htime with hbefore | hlast
  · exact hscores time hbefore
  · rw [hlast]
    exact ⟨hnow, le_refl now⟩

end Server

/-- A `RedisStorage` and an `InMemoryStorage` that hold the same hits for the
    installed rules of some handlers, at whole microseconds. The keys of
    generations to come are unused, and the counters in memory are among those
    that there is room for. -/
structure RedisStorage.Mirrors {V : Type} (hexdigest : String → String) (handlers : Set String)
    (known : Finset CounterKey) (limiter : Limiter) (now : ℚ) (drawn : List String) (redis : RedisStorage V)
    (memory : InMemoryStorage V) : Prop where
  holds : ∀ handler_name ∈ handlers, ∀ rule_index rule, (limiter.get_rules handler_name)[rule_index]? = some rule →
    ∀ request_key, redis.client.Holds Microsecond
      (redis.build_counter_key hexdigest request_key handler_name rule_index) rule.window_seconds now drawn
      (memory.history (request_key, handler_name, rule_index))
  unused : ∀ handler_name ∈ handlers, ∀ other : RedisStorage V, other.key_prefix = redis.key_prefix →
    other.key_hash = redis.key_hash → generation redis handler_name < generation other handler_name →
    ∀ request_key rule_index, redis.client (other.build_counter_key hexdigest request_key handler_name rule_index) = none
  keys : ∀ counter_key ∈ memory.request_counters.keys, counter_key ∈ known
  room : known.card ≤ (memory.max_counters : Nat)

namespace RedisStorage

variable {V : Type} {hexdigest : String → String} {handlers : Set String} {known : Finset CounterKey}
  {limiter next : Limiter} {now : ℚ} {drawn : List String} {redis : RedisStorage V} {memory : InMemoryStorage V}

/-- A storage whose counters are unused from the present generations on, and an
    empty one in memory. -/
theorem Mirrors.init
    (hunused : ∀ handler_name ∈ handlers, ∀ other : RedisStorage V, other.key_prefix = redis.key_prefix →
      other.key_hash = redis.key_hash → generation redis handler_name ≤ generation other handler_name →
      ∀ request_key rule_index,
        redis.client (other.build_counter_key hexdigest request_key handler_name rule_index) = none)
    (max_keys : ℕ+) {max_counters : ℕ+} (hroom : known.card ≤ (max_counters : Nat)) (limiter : Limiter) (now : ℚ) :
    Mirrors hexdigest handlers known limiter now [] redis (.fresh max_keys max_counters) where
  holds handler_name hhandler rule_index _ _ request_key :=
    .of_absent (hunused handler_name hhandler redis rfl rfl (le_refl _) request_key rule_index) _ _ _
  unused handler_name hhandler other hprefix hhash hlater :=
    hunused handler_name hhandler other hprefix hhash (le_of_lt hlater)
  keys _ hmem := absurd hmem List.not_mem_nil
  room := hroom

theorem Mirrors.wait (h : Mirrors hexdigest handlers known limiter now drawn redis memory) {later : ℚ}
    (hle : now ≤ later) : Mirrors hexdigest handlers known limiter later drawn redis memory where
  holds handler_name hhandler rule_index rule hrule request_key :=
    (h.holds handler_name hhandler rule_index rule hrule request_key).wait hle
  unused := h.unused
  keys := h.keys
  room := h.room

/-- Only the policies of the limiter matter. -/
theorem Mirrors.configure (h : Mirrors hexdigest handlers known limiter now drawn redis memory)
    (hrules : ∀ handler_name, next.get_rules handler_name = limiter.get_rules handler_name) :
    Mirrors hexdigest handlers known next now drawn redis memory where
  holds handler_name hhandler := by
    rw [hrules]
    exact h.holds handler_name hhandler
  unused := h.unused
  keys := h.keys
  room := h.room

/-- A healthy hit of a counter: what it answers, what it leaves there, and that
    the other keys only expire. -/
theorem record_hit_holds {env : Environment} {request_key handler_name : String} {rule_index : Nat} {rule : Rule}
    {history stored : List ℚ}
    (hholds : redis.client.Holds Microsecond
      (redis.build_counter_key hexdigest request_key handler_name rule_index) rule.window_seconds now drawn history)
    (hle : now ≤ env.server_time) (hmicrosecond : Microsecond env.server_time) (hhealthy : env.fault = .none)
    (hfresh : env.uuid ∉ drawn)
    (hstored : record (rule.window_seconds : ℚ) (capacity (some (rule.count + 1))) history env.server_time =
      stored) :
    ∃ (client : Server) (oldest retry : ℚ),
      redis.record_hit hexdigest .printed env request_key handler_name rule_index rule.window_seconds
          (some (rule.count + 1)) =
        (.ok ⟨stored.length, some oldest, g_format 14 env.server_time, some retry⟩, { redis with client }) ∧
      policy.retry_hit (hit_result env.server_time (some (rule.count + 1)) stored) = some retry ∧
      client.Holds Microsecond (redis.build_counter_key hexdigest request_key handler_name rule_index)
        rule.window_seconds env.server_time (drawn ++ [env.uuid]) stored ∧
      ∀ key, key ≠ redis.build_counter_key hexdigest request_key handler_name rule_index →
        client key = redis.client.expire_keys env.toContact key := by
  obtain ⟨client, oldest, retry, heval, hretry, hkept⟩ :=
    (hholds.expire_keys env.toContact hle).eval (Numerals.printed_faithful rule.window_seconds_pos.le) hmicrosecond
      (two_le_cap rule) hfresh hstored
  have hremote : redis.record_hit hexdigest .printed env request_key handler_name rule_index rule.window_seconds
      (some (rule.count + 1)) = (.ok ⟨stored.length, some oldest, g_format 14 env.server_time, some retry⟩,
        { redis with client }) := by
    simp only [record_hit, eval_hit, send, Server.call_of_healthy hhealthy, heval, parse_hit_result_numbers]
    rfl
  refine ⟨client, oldest, retry, hremote, hretry, hkept, fun key hne => ?_⟩
  have hspared := Server.eval_spares .printed env.server_time hne rule.window_seconds env.uuid
    ((some (rule.count + 1)).getD 0) (redis.client.expire_keys env.toContact)
  rw [heval] at hspared
  exact hspared

/-- A healthy and clear hit of an installed rule gets the same verdict on both. -/
theorem Mirrors.hit (h : Mirrors hexdigest handlers known limiter now drawn redis memory) {env : Environment}
    (hle : now ≤ env.server_time) (hclock : env.monotonic = env.server_time)
    (hmicrosecond : Microsecond env.server_time) (hhealthy : env.fault = .none) (hfresh : env.uuid ∉ drawn)
    (hisolated : ∀ first ∈ handlers, ∀ second ∈ handlers, RedisIsolated V hexdigest redis.key_hash first second)
    {request_key handler_name : String} {rule_index : Nat} {rule : Rule} (hhandler : handler_name ∈ handlers)
    (hrule : (limiter.get_rules handler_name)[rule_index]? = some rule)
    (hknown : (request_key, handler_name, rule_index) ∈ known)
    (hclear : ∀ counter, redis.client.counter
      (redis.build_counter_key hexdigest request_key handler_name rule_index) = some counter →
      Clear rule counter.scores env.server_time) :
    let remote := redis.record_hit hexdigest .printed env request_key handler_name rule_index rule.window_seconds
      (some (rule.count + 1))
    let own := memory.record_hit env.monotonic request_key handler_name rule_index rule.window_seconds
      (some (rule.count + 1))
    (∃ first second, remote.1 = .ok first ∧ own.1 = .ok second ∧
      policy.verdict rule first = policy.verdict rule second) ∧
      remote.2.key_hash = redis.key_hash ∧
      Mirrors hexdigest handlers known limiter env.server_time (drawn ++ [env.uuid]) remote.2 own.2 := by
  have hbefore := h.holds handler_name hhandler rule_index rule hrule request_key
  obtain ⟨client, oldest, retry, hremote, hretry, hholds, hspared⟩ :=
    record_hit_holds hbefore hle hmicrosecond hhealthy hfresh rfl
  have hown := memory.record_hit_eq env.monotonic request_key handler_name rule_index rule.window_seconds
    (validate_max_hits_rule rule) (has_room_of_known h.keys h.room hknown)
  rw [hclock] at hown
  simp only [hclock, hremote, hown]
  refine ⟨⟨_, _, rfl, rfl, ?_⟩, trivial, ?_, ?_, ?_, h.room⟩
  · obtain ⟨counter, hcounter, hscores, hprune⟩ := hbefore.counter
    have hjudged := (hclear counter hcounter).judgement_eq counter.scores_sorted
      (fun time htime => (hscores time htime).trans hle)
    rw [record_congr (hprune env.server_time hle)] at hjudged
    rw [verdict_hit_result, ← hjudged]
    exact verdict_of_sameHit rfl hretry.symm
  · intro name hname index other hother key
    change client.Holds Microsecond (redis.build_counter_key hexdigest key name index) _ _ _ _
    by_cases hsame : (key, name, index) = (request_key, handler_name, rule_index)
    · simp only [Prod.mk.injEq] at hsame
      obtain ⟨rfl, rfl, rfl⟩ := hsame
      cases hrule.symm.trans hother
      rw [history_store_history_self]
      exact hholds
    · have hne : redis.build_counter_key hexdigest key name index ≠
          redis.build_counter_key hexdigest request_key handler_name rule_index := by
        intro heq
        have hsame' := hisolated name hname handler_name hhandler redis redis _ _ _ _ rfl rfl rfl heq
        simp only [Prod.mk.injEq] at hsame'
        exact hsame (by rw [hsame'.1, hsame'.2.2.1, hsame'.2.2.2])
      rw [history_store_history_of_ne _ _ hsame]
      have hbefore := h.holds name hname index other hother key
      exact ((hbefore.expire_keys env.toContact hle).congr (hspared _ hne)).draw env.uuid
  · intro name hname other hprefix hhash hlater key index
    have hne : other.build_counter_key hexdigest key name index ≠
        redis.build_counter_key hexdigest request_key handler_name rule_index := by
      intro heq
      have hsame := hisolated name hname handler_name hhandler other redis _ _ _ _ hhash rfl hprefix heq
      simp only [Prod.mk.injEq] at hsame
      have hgeneration : generation other name = generation redis name := by rw [hsame.2.1, hsame.1]
      exact absurd hlater (by rw [hgeneration]; exact lt_irrefl _)
    change client _ = none
    rw [hspared _ hne, Server.expire_keys, h.unused name hname other hprefix hhash hlater key index]
  · intro counter_key hmem
    rcases OrderedDict.mem_keys_set.mp hmem with rfl | hbefore
    · exact hknown
    · exact h.keys counter_key hbefore

/-- The clean-ups that follow the locked part of a policy call, with the clock of
    the process. -/
def clean_up (self : RedisStorage V) (now : ℚ) (endpoint_name : String)
    (active_rules : OrderedDict String (List Rule)) : RedisStorage V :=
  (self.cleanup_handler_counters endpoint_name).cleanup_orphaned_counters (.healthy now "") active_rules

theorem generation_clean_up (self : RedisStorage V) (now : ℚ) (endpoint_name : String)
    (active_rules : OrderedDict String (List Rule)) (handler_name : String) :
    generation (self.clean_up now endpoint_name active_rules) handler_name =
      if handler_name = endpoint_name then generation self endpoint_name + 1 else generation self handler_name := by
  simp only [clean_up, cleanup_handler_counters, cleanup_orphaned_counters, generation, OrderedDict.get?_set]
  split <;> rfl

/-- A counter that stays in its generation keeps its key. -/
theorem build_counter_key_clean_up (self : RedisStorage V) (now : ℚ) {endpoint_name handler_name : String}
    (hother : handler_name ≠ endpoint_name) (active_rules : OrderedDict String (List Rule)) (request_key : String)
    (rule_index : Nat) :
    (self.clean_up now endpoint_name active_rules).build_counter_key hexdigest request_key handler_name rule_index =
      self.build_counter_key hexdigest request_key handler_name rule_index := by
  rw [build_counter_key_eq, build_counter_key_eq, generation_clean_up, if_neg hother]
  rfl

/-- A policy change starts new counters for its handler on both and leaves the
    others alone as far as their windows reach. -/
theorem Mirrors.change (h : Mirrors hexdigest handlers known limiter now drawn redis memory) {later : ℚ}
    (hle : now ≤ later) {change : PolicyChange} {written : Limiter × OrderedDict String (List Rule)}
    (hwritten : limiter.change change = .ok written) :
    Mirrors hexdigest handlers known written.1 later drawn (redis.clean_up later change.endpoint_name written.2)
      (memory.clean_up later change.endpoint_name written.2) := by
  refine ⟨?_, ?_, ?_, ?_⟩
  · intro handler_name hhandler rule_index rule hrule request_key
    by_cases hown : handler_name = change.endpoint_name
    · subst hown
      rw [history_clean_up_self]
      refine .of_absent ?_ _ _ _
      refine h.unused _ hhandler
        (redis.clean_up later change.endpoint_name written.2) rfl rfl ?_ request_key rule_index
      rw [generation_clean_up, if_pos rfl]
      exact Nat.lt_succ_self _
    · rw [Limiter.get_rules_of_change hwritten hown] at hrule
      have hwindow := active_window_of_get_rules (Limiter.get?_of_change hwritten hown) hrule request_key
      rw [InMemoryStorage.history_clean_up_of_ne _ _ hown hwindow, build_counter_key_clean_up _ _ hown]
      exact ((h.holds handler_name hhandler rule_index rule hrule request_key).wait hle).prune
  · intro handler_name hhandler other hprefix hhash hlater request_key rule_index
    refine h.unused handler_name hhandler other hprefix hhash ?_ request_key rule_index
    refine lt_of_le_of_lt ?_ hlater
    rw [generation_clean_up]
    split
    · next hsame =>
      rw [hsame]
      exact Nat.le_succ _
    · exact le_refl _
  · intro counter_key hmem
    exact h.keys counter_key (mem_keys_of_clean_up hmem).2
  · have hmax : (memory.clean_up later change.endpoint_name written.2).max_counters = memory.max_counters :=
      foldl_delete_key_max_counters _ _
    rw [hmax]
    exact h.room

end RedisStorage

end response_bandwidth_limiter.redis

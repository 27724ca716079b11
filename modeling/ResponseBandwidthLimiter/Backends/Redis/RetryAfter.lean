import ResponseBandwidthLimiter.Backends.Redis.Window
import ResponseBandwidthLimiter.Collections.Decimal

open collections sliding_window
open response_bandwidth_limiter.base response_bandwidth_limiter.models response_bandwidth_limiter.policy
open response_bandwidth_limiter.memory response_bandwidth_limiter.memory.InMemoryStorage

namespace response_bandwidth_limiter.redis

/-- Arguments and scores are printed with 17 significant digits, and `tostring`
    prints 14. -/
def Numerals.printed : Numerals where
  argument := g_format 17
  score := g_format 17
  tostring := g_format 14

/-- A whole number of microseconds with ten digits of seconds. -/
def Microsecond (time : ℚ) : Prop := (∃ n : ℤ, time * 10 ^ 6 = n) ∧ 10 ^ 9 ≤ time ∧ time < 10 ^ 10

theorem Microsecond.g_format_eq {time : ℚ} (htime : Microsecond time) : g_format 17 time = time := by
  obtain ⟨⟨n, hn⟩, hlow, hhigh⟩ := htime
  exact g_format_of_decimal 10 6 (by decide) hn (by linarith) hhigh

/-- Seventeen digits are enough for every time of a counter. A threshold before
    the epoch may be rounded, but it stays below every hit. -/
theorem Numerals.printed_faithful {window_seconds : ℤ} (hwindow : 0 ≤ window_seconds) :
    Numerals.printed.Faithful window_seconds Microsecond where
  argument_eq _ htime := htime.g_format_eq
  score_eq _ htime := htime.g_format_eq
  threshold_lt := by
    rintro now time ⟨⟨n, hn⟩, hlow, hhigh⟩ ⟨_, htime, _⟩
    have hpos : (0 : ℚ) ≤ window_seconds := by exact_mod_cast hwindow
    by_cases hepoch : 0 ≤ now - window_seconds
    · have hdecimal : (now - window_seconds) * 10 ^ 6 = ((n - window_seconds * 10 ^ 6 : ℤ) : ℚ) := by
        push_cast
        rw [sub_mul, hn]
        norm_num
      rw [show Numerals.printed.argument = g_format 17 from rfl,
        g_format_of_decimal 10 6 (by decide) hdecimal hepoch (by linarith)]
    · push Not at hepoch
      have hargument : Numerals.printed.argument (now - window_seconds) ≤ 0 := g_format_nonpos hepoch
      exact ⟨fun _ => by linarith, fun _ => by linarith⟩

/-- Rounding up two remainders of a window gives the same wait, of at least one
    second, exactly when no whole second of the window lies between the times
    passed. -/
theorem wait_eq_iff {window : ℤ} {passed printed : ℚ} (hstart : 0 ≤ passed) (hend : passed < window) :
    max 1 ⌈(window : ℚ) - printed⌉ = max 1 ⌈(window : ℚ) - passed⌉ ↔
      ¬ ∃ k : ℤ, 0 ≤ k ∧ k < window ∧ ((passed < k ∧ k ≤ printed) ∨ (printed < k ∧ k ≤ passed)) := by
  have hceil : ∀ x : ℚ, ⌈(window : ℚ) - x⌉ = window - ⌊x⌋ := by
    intro x
    rw [sub_eq_add_neg, Int.ceil_intCast_add, Int.ceil_neg, sub_eq_add_neg]
  have hlow : 0 ≤ ⌊passed⌋ := Int.floor_nonneg.mpr hstart
  have hhigh : ⌊passed⌋ < window := Int.floor_lt.mpr hend
  simp only [hceil, ← Int.le_floor, ← Int.floor_lt]
  constructor
  · rintro heq ⟨k, hk, hkw, hbetween⟩
    omega
  · intro hnone
    by_contra hne
    rcases lt_trichotomy ⌊passed⌋ ⌊printed⌋ with hlt | heq | hgt
    · exact hnone ⟨⌊passed⌋ + 1, by omega, by omega, Or.inl ⟨by omega, by omega⟩⟩
    · exact hne (by rw [heq])
    · exact hnone ⟨⌊passed⌋, by omega, by omega, Or.inr ⟨by omega, by omega⟩⟩

section Evaluation

variable {V : Type} (hexdigest : String → String) (scope_identifiers : OrderedDict String String)
  (handler_name : String) (rule : Rule)

/-- An evaluation of one rule over Redis. -/
def redis_evaluate (storage : RedisStorage V) (env : Environment) :
    Except PyError (Option MatchedPolicy) × RedisStorage V :=
  evaluate (fun storage request_key handler_name rule_index window_seconds max_hits =>
      storage.record_hit hexdigest Numerals.printed env request_key handler_name rule_index window_seconds
        max_hits)
    storage scope_identifiers handler_name [rule]

/-- The same evaluation over memory, at the same time. -/
def memory_evaluate (storage : InMemoryStorage V) (env : Environment) :
    Except PyError (Option MatchedPolicy) × InMemoryStorage V :=
  evaluate (fun storage request_key handler_name rule_index window_seconds max_hits =>
      storage.record_hit env.server_time request_key handler_name rule_index window_seconds max_hits)
    storage scope_identifiers handler_name [rule]

/-- The hits the sliding window of a rule holds after hits at the earlier times
    and one now. -/
def held (earlier : List ℚ) (now : ℚ) : List ℚ :=
  record (rule.window_seconds : ℚ) (capacity (some (rule.count + 1)))
    (replay (rule.window_seconds : ℚ) (capacity (some (rule.count + 1))) [] earlier) now

/-- What the evaluation makes of the hits held, when it reads the clock as
    `current`. -/
def judgement (held : List ℚ) (current : ℚ) : Option MatchedPolicy :=
  if (held.length : ℤ) > rule.count then
    some ⟨rule, retry_after_seconds held[retry_rank (rule.count + 1) held.length]? current rule.window_seconds⟩
  else none

variable {hexdigest scope_identifiers handler_name rule}
variable {request_key : String}

/-- The verdict on a hit over memory. -/
theorem verdict_hit_result (now : ℚ) (stored : List ℚ) :
    verdict rule (hit_result now (some (rule.count + 1)) stored) = judgement rule stored now := by
  simp only [verdict, judgement, retry_hit_hit_result, Option.getD_some]
  rfl

/-- The verdict on the same hit over Redis differs by its clock reading alone. -/
theorem verdict_of_sameHit {now : ℚ} {stored : List ℚ} {remote : SlidingWindowResult}
    (hcount : remote.hit_count = stored.length)
    (hretry : retry_hit remote = retry_hit (hit_result now (some (rule.count + 1)) stored)) :
    verdict rule remote = judgement rule stored remote.current_timestamp := by
  simp only [verdict, judgement, hcount, hretry, retry_hit_hit_result, Option.getD_some]

theorem redis_evaluate_eq (hidentifier : scope_identifiers.get? rule.scope = some request_key)
    (storage : RedisStorage V) (env : Environment) :
    let hit := redis_hit hexdigest Numerals.printed request_key handler_name 0 rule.window_seconds
      (some (rule.count + 1)) storage env
    redis_evaluate hexdigest scope_identifiers handler_name rule storage env =
      (hit.1.2.map (verdict rule), hit.2) := by
  rw [redis_evaluate, evaluate_single _ hidentifier]
  rfl

theorem memory_evaluate_eq (hidentifier : scope_identifiers.get? rule.scope = some request_key)
    (storage : InMemoryStorage V) (env : Environment) :
    let hit := memory_hit request_key handler_name 0 rule.window_seconds (some (rule.count + 1)) storage env
    memory_evaluate scope_identifiers handler_name rule storage env = (hit.1.map (verdict rule), hit.2) := by
  rw [memory_evaluate, evaluate_single _ hidentifier]
  rfl

theorem settle_redis_evaluate (hidentifier : scope_identifiers.get? rule.scope = some request_key)
    (storage : RedisStorage V) (envs : List Environment) :
    settle (redis_evaluate hexdigest scope_identifiers handler_name rule) storage envs =
      settle (redis_hit hexdigest Numerals.printed request_key handler_name 0 rule.window_seconds
        (some (rule.count + 1))) storage envs :=
  settle_congr _ (fun state event => congrArg Prod.snd (redis_evaluate_eq hidentifier state event)) storage envs

theorem settle_memory_evaluate (hidentifier : scope_identifiers.get? rule.scope = some request_key)
    (storage : InMemoryStorage V) (envs : List Environment) :
    settle (memory_evaluate scope_identifiers handler_name rule) storage envs =
      settle (memory_hit request_key handler_name 0 rule.window_seconds (some (rule.count + 1))) storage envs :=
  settle_congr _ (fun state event => congrArg Prod.snd (memory_evaluate_eq hidentifier state event)) storage envs

/-- A run of evaluations of one rule, at distinct identifiers and times Redis
    prints exactly, over a healthy server. -/
structure EvaluationRun (envs : List Environment) : Prop where
  mono : envs.Pairwise (fun earlier later => earlier.server_time ≤ later.server_time)
  uuids : (envs.map Environment.uuid).Nodup
  microseconds : ∀ env ∈ envs, Microsecond env.server_time
  healthy : ∀ env ∈ envs, env.fault = .none

theorem EvaluationRun.of_append {before rest : List Environment} (hrun : EvaluationRun (before ++ rest)) :
    EvaluationRun before where
  mono := (List.pairwise_append.mp hrun.mono).1
  uuids := (List.nodup_append.mp (List.map_append ▸ hrun.uuids)).1
  microseconds env henv := hrun.microseconds env (List.mem_append_left _ henv)
  healthy env henv := hrun.healthy env (List.mem_append_left _ henv)

theorem EvaluationRun.times_sorted {before rest : List Environment} {env : Environment}
    (hrun : EvaluationRun (before ++ env :: rest)) :
    Sorted (before.map (fun env => env.server_time) ++ [env.server_time]) := by
  obtain ⟨hbefore, _, hlater⟩ := List.pairwise_append.mp hrun.mono
  refine List.pairwise_append.mpr ⟨List.pairwise_map.mpr hbefore, List.pairwise_singleton _ _, ?_⟩
  intro time htime last hlast
  obtain ⟨earlier, hearlier, rfl⟩ := List.mem_map.mp htime
  rw [List.mem_singleton] at hlast
  exact hlast ▸ hlater earlier hearlier env (by simp)

/-- Every evaluation of a run judges the hits the sliding window holds, memory
    at the current time and Redis at its printed form. -/
theorem evaluations_at (hidentifier : scope_identifiers.get? rule.scope = some request_key)
    {before rest : List Environment} {env : Environment} (hrun : EvaluationRun (before ++ env :: rest))
    (max_keys max_counters : ℕ+) {storage : RedisStorage V}
    (habsent : storage.client (storage.build_counter_key hexdigest request_key handler_name 0) = none) :
    let hits := held rule (before.map (fun env => env.server_time)) env.server_time
    (outputs (redis_evaluate hexdigest scope_identifiers handler_name rule) storage
        (before ++ env :: rest))[before.length]? =
      some (.ok (judgement rule hits (g_format 14 env.server_time))) ∧
    (outputs (memory_evaluate scope_identifiers handler_name rule)
        (fresh max_keys max_counters : InMemoryStorage V) (before ++ env :: rest))[before.length]? =
      some (.ok (judgement rule hits env.server_time)) := by
  have hfaithful := Numerals.printed_faithful rule.window_seconds_pos.le
  have hprefix := hrun.of_append
  have hstep := (record_hit_in_step hfaithful (two_le_cap rule) hprefix.mono hprefix.uuids hprefix.microseconds
    hprefix.healthy max_keys max_counters rfl habsent (V := V)).2
  obtain ⟨_, _, hlater⟩ := List.pairwise_append.mp hrun.mono
  have hfresh : env.uuid ∉ before.map Environment.uuid := by
    have huuids := hrun.uuids
    rw [List.map_append, List.nodup_append] at huuids
    exact fun hmem => huuids.2.2 _ hmem _ (by simp) rfl
  have hbefore : ∀ earlier ∈ before, earlier.server_time ≤ env.server_time :=
    fun earlier hearlier => hlater earlier hearlier env (by simp)
  obtain ⟨⟨remote, own, hremote, hown, hcount, _, hretry, hcurrent, _⟩, _⟩ :=
    hstep.hit hfaithful (two_le_cap rule) hbefore hfresh (hrun.microseconds env (by simp))
      (hrun.healthy env (by simp))
  have hmemory := (settle (memory_hit request_key handler_name 0 rule.window_seconds (some (rule.count + 1)))
    (fresh max_keys max_counters : InMemoryStorage V) before).record_hit_eq env.server_time request_key
      handler_name 0 rule.window_seconds (validate_max_hits_of_two_le (two_le_cap rule)) hstep.room
  rw [hstep.replayed] at hmemory
  have hresult : own = hit_result env.server_time (some (rule.count + 1))
      (held rule (before.map (fun env => env.server_time)) env.server_time) := by
    rw [memory_hit, hmemory] at hown
    exact (Except.ok.inj hown).symm
  subst hresult
  refine ⟨?_, ?_⟩
  · rw [outputs_getElem?, redis_evaluate_eq hidentifier, settle_redis_evaluate hidentifier]
    simp only [hremote, Except.map, verdict_of_sameHit hcount hretry, hcurrent]
    rfl
  · rw [outputs_getElem?, memory_evaluate_eq hidentifier, settle_memory_evaluate hidentifier]
    simp only [hown, Except.map, verdict_hit_result]

/-- The hit a matching evaluation waits for is the second oldest held: one hit
    more than the rule allows is held, and the window keeps no more. -/
theorem judgement_eq_some_iff (earlier : List ℚ) (now current : ℚ) {matched : MatchedPolicy} :
    judgement rule (held rule earlier now) current = some matched ↔
      ∃ hit, (held rule earlier now)[1]? = some hit ∧
        (held rule earlier now).length = rule.count + 1 ∧
        matched = ⟨rule, max 1 ⌈(rule.window_seconds : ℚ) - (current - hit)⌉⟩ := by
  have hpos := rule.count_pos
  have hfull : ((held rule earlier now).length : ℤ) ≤ rule.count + 1 := by
    have hheld : (held rule earlier now).length ≤ (rule.count + 1).toNat :=
      record_length_le (replay_length_le earlier)
    omega
  unfold judgement
  by_cases hover : ((held rule earlier now).length : ℤ) > rule.count
  · have hlength : ((held rule earlier now).length : ℤ) = rule.count + 1 := by omega
    have hindex : 1 < (held rule earlier now).length := by omega
    have hrank : retry_rank (rule.count + 1) (held rule earlier now).length = 1 := by
      simp only [retry_rank, hlength]
      rw [if_pos ⟨by omega, le_refl _⟩]
      omega
    rw [if_pos hover, hrank, List.getElem?_eq_getElem hindex, Option.some.injEq]
    constructor
    · rintro rfl
      exact ⟨_, rfl, hlength, rfl⟩
    · rintro ⟨hit, hhit, _, rfl⟩
      rw [Option.some.inj hhit]
      rfl
  · rw [if_neg hover]
    constructor
    · exact fun h => by cases h
    · rintro ⟨_, _, hlength, _⟩
      omega

/-- A whole number of seconds after `hit`, less than the window, separates the
    current time from the fourteen digits it is printed with. -/
def Separated (rule : Rule) (now hit : ℚ) : Prop :=
  ∃ k : ℤ, 0 ≤ k ∧ k < rule.window_seconds ∧
    ((now < hit + k ∧ hit + k ≤ g_format 14 now) ∨ (g_format 14 now < hit + k ∧ hit + k ≤ now))

/-- Inside the window the two waits are equal exactly when no whole second
    separates the current time from its print. -/
theorem wait_eq_iff_of_inside {now hit : ℚ} (hstart : 0 ≤ now - hit) (hend : now - hit < rule.window_seconds) :
    max 1 ⌈(rule.window_seconds : ℚ) - (g_format 14 now - hit)⌉ =
        max 1 ⌈(rule.window_seconds : ℚ) - (now - hit)⌉ ↔ ¬ Separated rule now hit := by
  rw [wait_eq_iff hstart hend, Separated]
  simp only [sub_lt_iff_lt_add', le_sub_iff_add_le']

/-- The current time is not separated from a print that shows it in full. -/
theorem not_separated_of_printed {now : ℚ} (hprinted : g_format 14 now = now) (hit : ℚ) :
    ¬ Separated rule now hit := by
  rintro ⟨k, -, -, hbetween⟩
  rw [hprinted] at hbetween
  rcases hbetween with ⟨hlt, hle⟩ | ⟨hlt, hle⟩ <;> exact absurd hlt (not_lt.mpr hle)

/-- A hit at a time that goes over the limit of a rule waits for a hit that no
    whole second separates from the print of that time. -/
def Clear (rule : Rule) (history : List ℚ) (now : ℚ) : Prop :=
  let stored := record (rule.window_seconds : ℚ) (capacity (some (rule.count + 1))) history now
  (stored.length : ℤ) > rule.count → ∀ hit ∈ stored[retry_rank (rule.count + 1) stored.length]?,
    ¬ Separated rule now hit

/-- A clear hit is judged alike at its time and at the print of its time. -/
theorem Clear.judgement_eq {history : List ℚ} {now : ℚ} (h : Clear rule history now) (hsorted : Sorted history)
    (hbefore : ∀ time ∈ history, time ≤ now) :
    let stored := record (rule.window_seconds : ℚ) (capacity (some (rule.count + 1))) history now
    judgement rule stored (g_format 14 now) = judgement rule stored now := by
  intro stored
  unfold judgement
  split
  · next hover =>
    cases hhit : stored[retry_rank (rule.count + 1) stored.length]? with
    | none => rfl
    | some hit =>
      have hmem : hit ∈ stored := List.mem_of_getElem? hhit
      have hpos : (0 : ℚ) < rule.window_seconds := by exact_mod_cast rule.window_seconds_pos
      have hafter := lt_of_mem_record hpos hsorted hmem
      have hle : hit ≤ now := (mem_of_mem_record hmem).elim (hbefore hit) le_of_eq
      have hinside : now - hit < rule.window_seconds := by linarith
      have hwait := (wait_eq_iff_of_inside (sub_nonneg.mpr hle) hinside).mpr (h hover hit hhit)
      simp only [retry_after_seconds, hwait]
  · rfl

theorem held_bounds {earlier : List ℚ} {now : ℚ} (hmono : Sorted (earlier ++ [now])) {hit : ℚ}
    (hmem : hit ∈ held rule earlier now) : 0 ≤ now - hit ∧ now - hit < rule.window_seconds := by
  obtain ⟨hearlier, _, hle⟩ := List.pairwise_append.mp hmono
  have hpos : (0 : ℚ) < rule.window_seconds := by exact_mod_cast rule.window_seconds_pos
  have hafter := lt_of_mem_record_replay hpos hearlier hmem
  have hbefore : hit ≤ now := by
    rcases mem_of_mem_record hmem with hkept | rfl
    · exact hle hit ((replay_sublist _ _ _).subset hkept) now (by simp)
    · exact le_refl _
  constructor <;> linarith

/-- The two waits are equal exactly when no whole second separates the current
    time from its print. -/
theorem wait_eq_iff_not_separated {earlier : List ℚ} {now hit : ℚ} (hmono : Sorted (earlier ++ [now]))
    (hmem : hit ∈ held rule earlier now) :
    max 1 ⌈(rule.window_seconds : ℚ) - (g_format 14 now - hit)⌉ =
        max 1 ⌈(rule.window_seconds : ℚ) - (now - hit)⌉ ↔ ¬ Separated rule now hit := by
  obtain ⟨hstart, hend⟩ := held_bounds hmono hmem
  exact wait_eq_iff_of_inside hstart hend

theorem held_concat (earlier : List ℚ) (now next : ℚ) :
    held rule (earlier ++ [now]) next =
      record (rule.window_seconds : ℚ) (capacity (some (rule.count + 1))) (held rule earlier now) next := by
  simp only [held, replay_append, replay_cons, replay_nil]

/-- Once the second oldest hit has left the window, the next hit is within the
    limit. -/
theorem judgement_none_of_wait {earlier : List ℚ} {now next current hit : ℚ} (hmono : Sorted (earlier ++ [now]))
    (hhit : (held rule earlier now)[1]? = some hit)
    (hlength : (held rule earlier now).length = rule.count + 1)
    (hwait : hit ≤ next - rule.window_seconds) :
    judgement rule (held rule (earlier ++ [now]) next) current = none := by
  obtain ⟨hindex, hget⟩ := List.getElem?_eq_some_iff.mp hhit
  have hsorted : Sorted (held rule earlier now) := by
    have hreplay := replay_sorted (rule.window_seconds : ℚ) (capacity (some (rule.count + 1))) hmono
    rwa [replay_append] at hreplay
  have hkept := prune_length_add_le hsorted hindex (hget ▸ hwait)
  have hnext := record_length_le_succ (rule.window_seconds : ℚ) (capacity (some (rule.count + 1)))
    (held rule earlier now) next
  rw [judgement, held_concat, if_neg]
  omega

/-- After a match and long enough a wait the next evaluation over Redis does not
    match. -/
theorem evaluation_after_wait (hidentifier : scope_identifiers.get? rule.scope = some request_key)
    {before others : List Environment} {env next : Environment}
    (hrun : EvaluationRun (before ++ env :: next :: others)) (max_keys max_counters : ℕ+)
    {storage : RedisStorage V}
    (habsent : storage.client (storage.build_counter_key hexdigest request_key handler_name 0) = none)
    {hit : ℚ} (hhit : (held rule (before.map (fun env => env.server_time)) env.server_time)[1]? = some hit)
    (hlength : (held rule (before.map (fun env => env.server_time)) env.server_time).length = rule.count + 1)
    (hwait : hit ≤ next.server_time - rule.window_seconds) :
    (outputs (redis_evaluate hexdigest scope_identifiers handler_name rule) storage
      (before ++ env :: next :: others))[before.length + 1]? = some (.ok none) := by
  have hmono := hrun.times_sorted
  rw [List.append_cons] at hrun ⊢
  have hafter := (evaluations_at hidentifier hrun max_keys max_counters habsent).1
  rw [List.length_append, List.length_singleton] at hafter
  rw [hafter, List.map_append, List.map_singleton, judgement_none_of_wait hmono hhit hlength hwait]

/-- Redis reports the same wait as memory, and waiting it out is enough. -/
def RetryAfterAgrees (hexdigest : String → String) (scope_identifiers : OrderedDict String String)
    (handler_name : String) (storage : RedisStorage V) (matched : MatchedPolicy)
    (before : List Environment) (env : Environment) (rest : List Environment) : Prop :=
  let evaluations := outputs (redis_evaluate hexdigest scope_identifiers handler_name matched.rule) storage
    (before ++ env :: rest)
  ∃ remote, evaluations[before.length]? = some (.ok (some remote)) ∧
    remote.rule = matched.rule ∧ remote.retry_after = matched.retry_after ∧
    ∀ next others, rest = next :: others → next.server_time = env.server_time + remote.retry_after →
      evaluations[before.length + 1]? = some (.ok none)

/-- When an evaluation of a rule matches over memory, its retry time over Redis
    is the same and sufficient exactly when no whole second after the retry hit
    separates the current time from the fourteen digits Redis prints of it. The
    retry hit is the second oldest the sliding window holds. -/
theorem retry_after_agrees_iff (hidentifier : scope_identifiers.get? rule.scope = some request_key)
    {before rest : List Environment} {env : Environment} (hrun : EvaluationRun (before ++ env :: rest))
    (max_keys max_counters : ℕ+) {storage : RedisStorage V}
    (habsent : storage.client (storage.build_counter_key hexdigest request_key handler_name 0) = none)
    {matched : MatchedPolicy}
    (hmatched : (outputs (memory_evaluate scope_identifiers handler_name rule)
      (fresh max_keys max_counters : InMemoryStorage V) (before ++ env :: rest))[before.length]? =
        some (.ok (some matched))) :
    RetryAfterAgrees hexdigest scope_identifiers handler_name storage matched before env rest ↔
      ∀ hit ∈ (held rule (before.map (fun env => env.server_time)) env.server_time)[1]?,
        ¬ Separated rule env.server_time hit := by
  obtain ⟨hremote, hown⟩ := evaluations_at hidentifier hrun max_keys max_counters habsent
  rw [hown, Option.some.injEq, Except.ok.injEq, judgement_eq_some_iff] at hmatched
  obtain ⟨hit, hhit, hlength, rfl⟩ := hmatched
  have hwait := wait_eq_iff_not_separated hrun.times_sorted (List.mem_of_getElem? hhit)
  have hverdict := (judgement_eq_some_iff (before.map (fun env => env.server_time)) env.server_time
    (g_format 14 env.server_time)).mpr ⟨hit, hhit, hlength, rfl⟩
  rw [hverdict] at hremote
  rw [hhit]
  constructor
  · rintro ⟨remote, houtput, _, hequal, _⟩ other hother
    rw [hremote, Option.some.injEq, Except.ok.injEq, Option.some.injEq] at houtput
    rw [Option.mem_def, Option.some.injEq] at hother
    subst houtput hother
    exact hwait.mp hequal
  · intro hclear
    have hequal := hwait.mpr (hclear hit rfl)
    refine ⟨_, hremote, rfl, hequal, ?_⟩
    rintro next others rfl hnext
    apply evaluation_after_wait hidentifier hrun max_keys max_counters habsent hhit hlength
    have hceil : (rule.window_seconds : ℚ) - (env.server_time - hit) ≤
        (max 1 ⌈(rule.window_seconds : ℚ) - (env.server_time - hit)⌉ : ℤ) :=
      (Int.le_ceil _).trans (by exact_mod_cast le_max_right _ _)
    rw [hnext, hequal]
    linarith

end Evaluation

section Example

/-- Hits under a rule of one per minute: an admitted one, a rejected one half a
    minute later, one 30 microseconds before a whole second after that, and one
    59 seconds later. -/
def early_release : List Environment :=
  [.healthy 1700000000 "a1", .healthy 1700000030 "b2", .healthy (1700000030 + 99997 / 100000) "c3",
    .healthy (1700000089 + 99997 / 100000) "d4"]

theorem early_release_run : EvaluationRun early_release where
  mono := by decide +kernel
  uuids := by decide
  microseconds := by
    simp only [early_release, List.forall_mem_cons, Microsecond, Environment.healthy]
    refine ⟨⟨⟨1700000000000000, by norm_num⟩, by norm_num, by norm_num⟩,
      ⟨⟨1700000030000000, by norm_num⟩, by norm_num, by norm_num⟩,
      ⟨⟨1700000030999970, by norm_num⟩, by norm_num, by norm_num⟩,
      ⟨⟨1700000089999970, by norm_num⟩, by norm_num, by norm_num⟩, by simp⟩
  healthy := by decide

private def client_scope : OrderedDict String String := OrderedDict.empty.set "ip" "192.0.2.1"

private theorem judgement_of_two (first hit : ℚ) {earlier : List ℚ} {now current : ℚ} {retry_after : ℤ}
    (hheld : held Rule.one_per_minute earlier now = [first, hit])
    (hwait : max 1 ⌈(60 : ℚ) - (current - hit)⌉ = retry_after) :
    judgement Rule.one_per_minute (held Rule.one_per_minute earlier now) current =
      some ⟨Rule.one_per_minute, retry_after⟩ := by
  rw [judgement_eq_some_iff, hheld]
  exact ⟨hit, rfl, rfl, by rw [← hwait]; rfl⟩

/-- The evaluations of `early_release` over both storages at a position. -/
private theorem early_release_at (before rest : List Environment) (env : Environment)
    (hsplit : before ++ env :: rest = early_release) :
    let hits := held Rule.one_per_minute (before.map (fun env => env.server_time)) env.server_time
    (outputs (redis_evaluate id client_scope "download" Rule.one_per_minute)
        (RedisStorage.default : RedisStorage PlainValue) early_release)[before.length]? =
      some (.ok (judgement Rule.one_per_minute hits (g_format 14 env.server_time))) ∧
    (outputs (memory_evaluate client_scope "download" Rule.one_per_minute)
        (fresh 1 1 : InMemoryStorage PlainValue) early_release)[before.length]? =
      some (.ok (judgement Rule.one_per_minute hits env.server_time)) := by
  have hrun : EvaluationRun (before ++ env :: rest) := hsplit ▸ early_release_run
  rw [← hsplit]
  exact evaluations_at (show client_scope.get? Rule.one_per_minute.scope = some "192.0.2.1" from rfl) hrun 1 1 rfl

private theorem third_hit_judgements :
    let hits := held Rule.one_per_minute [1700000000, 1700000030] (1700000030 + 99997 / 100000)
    judgement Rule.one_per_minute hits (1700000030 + 99997 / 100000) = some ⟨Rule.one_per_minute, 60⟩ ∧
      judgement Rule.one_per_minute hits (g_format 14 (1700000030 + 99997 / 100000)) =
        some ⟨Rule.one_per_minute, 59⟩ :=
  ⟨judgement_of_two 1700000000 1700000030 (by decide +kernel) (by decide +kernel),
    judgement_of_two 1700000000 1700000030 (by decide +kernel) (by decide +kernel)⟩

theorem early_release_agrees_iff :
    RetryAfterAgrees id client_scope "download" (RedisStorage.default : RedisStorage PlainValue)
        ⟨Rule.one_per_minute, 60⟩ (early_release.take 2) (.healthy (1700000030 + 99997 / 100000) "c3")
        (early_release.drop 3) ↔
      ∀ hit ∈ (held Rule.one_per_minute [1700000000, 1700000030] (1700000030 + 99997 / 100000))[1]?,
        ¬ Separated Rule.one_per_minute (1700000030 + 99997 / 100000) hit := by
  have hmatched := (early_release_at (early_release.take 2) (early_release.drop 3) _ rfl).2
  have hrun : EvaluationRun (early_release.take 2 ++
      Environment.healthy (1700000030 + 99997 / 100000) "c3" :: early_release.drop 3) := early_release_run
  exact retry_after_agrees_iff (show client_scope.get? Rule.one_per_minute.scope = some "192.0.2.1" from rfl)
    hrun 1 1 rfl (hmatched.trans (congrArg (fun matched => some (Except.ok matched))
      third_hit_judgements.1))

/-- On the third of these hits memory reports a wait of 60 seconds and Redis one
    of 59, and the hit 59 seconds later is still over the limit. -/
theorem early_release_too_early :
    let redis := outputs (redis_evaluate id client_scope "download" Rule.one_per_minute)
      (RedisStorage.default : RedisStorage PlainValue) early_release
    let memory := outputs (memory_evaluate client_scope "download" Rule.one_per_minute)
      (fresh 1 1 : InMemoryStorage PlainValue) early_release
    EvaluationRun early_release ∧ memory[2]? = some (.ok (some ⟨Rule.one_per_minute, 60⟩)) ∧
      redis[2]? = some (.ok (some ⟨Rule.one_per_minute, 59⟩)) ∧
      redis[3]? = some (.ok (some ⟨Rule.one_per_minute, 60⟩)) ∧
      ¬ RetryAfterAgrees id client_scope "download" (RedisStorage.default : RedisStorage PlainValue)
        ⟨Rule.one_per_minute, 60⟩ (early_release.take 2) (.healthy (1700000030 + 99997 / 100000) "c3")
        (early_release.drop 3) := by
  obtain ⟨hredis, hmemory⟩ := early_release_at (early_release.take 2) (early_release.drop 3) _ rfl
  have hlast := (early_release_at (early_release.take 3) [] _ rfl).1
  have hthird := hredis.trans (congrArg (fun matched => some (Except.ok matched)) third_hit_judgements.2)
  refine ⟨early_release_run, ?_, hthird, hlast.trans ?_, ?_⟩
  · exact hmemory.trans (congrArg (fun matched => some (Except.ok matched)) third_hit_judgements.1)
  · exact congrArg (fun matched => some (Except.ok matched))
      (judgement_of_two 1700000030 (1700000089 + 99997 / 100000) (by decide +kernel) (by decide +kernel))
  · rintro ⟨remote, houtput, _, hequal, _⟩
    have hsame := Option.some.inj (hthird.symm.trans houtput)
    rw [Except.ok.injEq, Option.some.injEq] at hsame
    rw [← hsame] at hequal
    exact absurd hequal (by decide)

end Example

end response_bandwidth_limiter.redis

import ResponseBandwidthLimiter.Backends.Redis.Generations
import ResponseBandwidthLimiter.Middleware.Effects
import ResponseBandwidthLimiter.Middleware.Fleet

open collections
open response_bandwidth_limiter.base response_bandwidth_limiter.models response_bandwidth_limiter.policy
open response_bandwidth_limiter.limiter response_bandwidth_limiter.memory response_bandwidth_limiter.redis
open response_bandwidth_limiter.counter_keys

namespace response_bandwidth_limiter.limiter

/-- A call that changes policies and cleans up counters. -/
def PublicCall.on_policies : PublicCall → Bool
  | .configure (.update_policy _ _ _) => true
  | .configure (.remove_policy _ _) => true
  | _ => false

/-- The other calls leave the policies as they are. -/
theorem Limiter.call_get_rules (self : Limiter) {call : PublicCall} (hcall : call.on_policies = false)
    (handler_name : String) : (self.call call).2.get_rules handler_name = self.get_rules handler_name := by
  have hpolicies : (self.call call).2.route_policies = self.route_policies := by
    unfold Limiter.call
    cases call with
    | update_route endpoint_name rate =>
      cases endpoint_name with
      | other => rfl
      | expected endpoint_name =>
        simp only
        split
        · rfl
        · split
          · rfl
          · next hok =>
            cases hchecked : check_rate rate false with
            | error e => simp only [hchecked, Except.bind, reduceCtorEq] at hok
            | ok checked =>
              rw [hchecked] at hok
              simp only [Except.bind, Limiter.update_route, validate_endpoint_name, validate_rate] at hok
              split_ifs at hok <;> cases hok
              rfl
    | remove_route endpoint_name => rfl
    | limit rate => rfl
    | configure call =>
      cases call with
      | register_scope_resolver scope_name resolver =>
        simp only [Limiter.configure]
        split
        · rfl
        · next hok =>
          unfold Limiter.register_scope_resolver at hok
          cases scope_name with
          | other => cases hok
          | expected scope_name =>
            cases hname : normalize_scope_name scope_name with
            | error e => simp only [hname, reduceCtorEq] at hok
            | ok normalized =>
              simp only [hname] at hok
              split_ifs at hok
              cases hok
              rfl
      | limit_rules rules => rfl
      | update_policy endpoint_name rules cleanup => cases hcall
      | remove_policy endpoint_name cleanup => cases hcall
  rw [Limiter.get_rules, Limiter.get_rules, hpolicies]

end response_bandwidth_limiter.limiter

namespace response_bandwidth_limiter.middleware

/-- A hit that a suspended evaluation waits for. -/
structure DueHit where
  request_key : String
  handler_name : String
  rule_index : Nat
  rule : Rule

def DueHit.counter_key (self : DueHit) : CounterKey := (self.request_key, self.handler_name, self.rule_index)

namespace World

def due_hit (self : World) (index : Nat) : Option DueHit :=
  match self.tasks[index]? with
  | none => none
  | some task =>
    match task.phase with
    | .evaluating evaluation _ =>
      match evaluation.next with
      | .record_hit request_key rule_index rule => some ⟨request_key, evaluation.handler_name, rule_index, rule⟩
      | _ => none
    | _ => none

/-- A request goes on alike with results of its hit that get one verdict. -/
theorem step_hit_congr {self : World} {index : Nat} {hit : DueHit} (hdue : self.due_hit index = some hit)
    {first second : SlidingWindowResult} (hverdict : verdict hit.rule first = verdict hit.rule second) :
    self.step (.resume index (.hit first)) = self.step (.resume index (.hit second)) := by
  unfold due_hit at hdue
  split at hdue
  · cases hdue
  · next task htask =>
    split at hdue
    · next evaluation route_limit hphase =>
      split at hdue
      · next request_key rule_index rule hnext =>
        cases hdue
        simp only [World.step, htask, Frame.resume, hphase, resume_eq_of_verdict hnext hverdict]
      · cases hdue
    · cases hdue

end World

/-- What a limiter and its requests use a storage for. -/
structure CounterStorage (S : Type) where
  record_hit : Environment → RecordHit S
  clean_up : ℚ → String → OrderedDict String (List Rule) → S → S

def memory_storage (V : Type) : CounterStorage (InMemoryStorage V) where
  record_hit env storage := storage.record_hit env.monotonic
  clean_up now endpoint_name active_rules storage := storage.clean_up now endpoint_name active_rules

def redis_storage (V : Type) (hexdigest : String → String) : CounterStorage (RedisStorage V) where
  record_hit env storage := storage.record_hit hexdigest .printed env
  clean_up now endpoint_name active_rules storage := storage.clean_up now endpoint_name active_rules

/-- No whole second after the hit that a hit over its limit waits for separates
    its time from the fourteen digits that Redis prints of it. -/
def DueHit.ClearOn {V : Type} (self : DueHit) (hexdigest : String → String) (storage : RedisStorage V) (now : ℚ) :
    Prop :=
  ∀ counter, storage.client.counter
    (storage.build_counter_key hexdigest self.request_key self.handler_name self.rule_index) = some counter →
    Clear self.rule counter.scores now

/-- The middleware of an application with a limiter, and the storage they share. -/
structure Deployment (S : Type) where
  world : World
  storage : S

/-- A step of a deployment: a step of the middleware, a public call that does not
    change policies, a policy change, or the storage counts the hit that a
    request waits for. -/
inductive DeploymentLabel where
  | take (label : Label)
  | call (call : PublicCall)
  | change (change : PolicyChange) (now : ℚ)
  | consult (index : Nat) (env : Environment)

/-- The clock that a step reads. -/
def DeploymentLabel.reading : DeploymentLabel → Option ℚ
  | .change _ now => some now
  | .consult _ env => some env.server_time
  | _ => none

def DeploymentLabel.uuid : DeploymentLabel → Option String
  | .consult _ env => some env.uuid
  | _ => none

namespace Deployment

variable {S : Type}

def step (counters : CounterStorage S) (self : Deployment S) : DeploymentLabel → Option (Deployment S)
  | .take (.configure _) => none
  | .take label =>
    if label.answers_hit then none else (self.world.step label).map (fun world => { self with world })
  | .call call =>
    if call.on_policies then none
    else (self.world.step (.configure (self.world.limiter.call call).2)).map (fun world => { self with world })
  | .change change now =>
    match self.world.limiter.change change with
    | .error _ => some self
    | .ok (limiter, active_rules) =>
      (self.world.step (.configure limiter)).map
        (fun world => ⟨world, counters.clean_up now change.endpoint_name active_rules self.storage⟩)
  | .consult index env =>
    match self.world.due_hit index with
    | none => none
    | some hit =>
      let (result, storage) := policy.record_hit (counters.record_hit env) self.storage hit.request_key
        hit.handler_name hit.rule_index hit.rule
      (self.world.step (.resume index (.of_result .hit result))).map (fun world => ⟨world, storage⟩)

/-- Healthy calls at one clock of whole microseconds, which never goes back, with
    identifiers of their own, in which a hit counts for the rule that is
    installed at its place and is clear. The handlers are those of the run, and
    there is room for their counters. -/
structure Steady {V : Type} (hexdigest : String → String) (handlers : Set String) (known : Finset CounterKey)
    (deployment : Deployment (RedisStorage V)) (labels : List DeploymentLabel) : Prop where
  mono : (labels.filterMap DeploymentLabel.reading).Pairwise (· ≤ ·)
  uuids : (labels.filterMap DeploymentLabel.uuid).Nodup
  healthy : ∀ index env, .consult index env ∈ labels →
    env.fault = .none ∧ env.monotonic = env.server_time ∧ Microsecond env.server_time
  current : ∀ earlier index env later, labels = earlier ++ .consult index env :: later →
    ∀ state, execute (step (redis_storage V hexdigest)) deployment earlier = some state →
      ∀ hit ∈ state.world.due_hit index, hit.handler_name ∈ handlers ∧ hit.counter_key ∈ known ∧
        (state.world.limiter.get_rules hit.handler_name)[hit.rule_index]? = some hit.rule ∧
        hit.ClearOn hexdigest state.storage env.server_time

/-- A prefix of a steady run is steady. -/
theorem Steady.before {V : Type} {hexdigest : String → String} {handlers : Set String} {known : Finset CounterKey}
    {deployment : Deployment (RedisStorage V)} {labels : List DeploymentLabel} {label : DeploymentLabel}
    (h : Steady hexdigest handlers known deployment (labels ++ [label])) :
    Steady hexdigest handlers known deployment labels where
  mono := by
    have hmono := h.mono
    rw [List.filterMap_append] at hmono
    exact (List.pairwise_append.mp hmono).1
  uuids := by
    have huuids := h.uuids
    rw [List.filterMap_append] at huuids
    exact (List.nodup_append.mp huuids).1
  healthy index env hmem := h.healthy index env (List.mem_append_left _ hmem)
  current earlier index env later hsplit :=
    h.current earlier index env (later ++ [label]) (by rw [hsplit, List.append_assoc]; rfl)

section Comparison

variable {V : Type} {hexdigest : String → String} {handlers : Set String} {known : Finset CounterKey} {now : ℚ}
  {drawn : List String} {remote : Deployment (RedisStorage V)} {own : Deployment (InMemoryStorage V)}

/-- Deployments over the two storages that have come to the same point. -/
structure Twins (hexdigest : String → String) (handlers : Set String) (known : Finset CounterKey) (now : ℚ)
    (drawn : List String) (remote : Deployment (RedisStorage V)) (own : Deployment (InMemoryStorage V)) : Prop where
  world : own.world = remote.world
  mirrors : RedisStorage.Mirrors hexdigest handlers known remote.world.limiter now drawn remote.storage own.storage
  isolated : ∀ first ∈ handlers, ∀ second ∈ handlers, RedisIsolated V hexdigest remote.storage.key_hash first second

/-- Steps that both take or neither, with the middleware in the same state. -/
def Together (hexdigest : String → String) (handlers : Set String) (known : Finset CounterKey) (now : ℚ)
    (drawn : List String) (remote : Option (Deployment (RedisStorage V)))
    (own : Option (Deployment (InMemoryStorage V))) : Prop :=
  (remote = none ∧ own = none) ∨
    ∃ next later, remote = some next ∧ own = some later ∧ Twins hexdigest handlers known now drawn next later

/-- Both storages have come to hold the same hits, and both middlewares take the
    same step. -/
theorem together_of_world (hisolated : ∀ first ∈ handlers, ∀ second ∈ handlers,
      RedisIsolated V hexdigest remote.storage.key_hash first second)
    {redis : RedisStorage V} {memory : InMemoryStorage V} (hhash : redis.key_hash = remote.storage.key_hash)
    {stepped : Option World}
    (hmirrors : ∀ world, stepped = some world →
      RedisStorage.Mirrors hexdigest handlers known world.limiter now drawn redis memory) :
    Together hexdigest handlers known now drawn (stepped.map (fun world => ⟨world, redis⟩))
      (stepped.map (fun world => ⟨world, memory⟩)) := by
  cases stepped with
  | none => exact Or.inl ⟨rfl, rfl⟩
  | some world => exact Or.inr ⟨_, _, rfl, rfl, rfl, hmirrors world rfl, hhash.symm ▸ hisolated⟩

/-- A step that only the middleware takes. -/
theorem Twins.step_take (h : Twins hexdigest handlers known now drawn remote own) {label : Label}
    (hother : ∀ limiter, label ≠ .configure limiter) :
    Together hexdigest handlers known now drawn
      (if label.answers_hit then none else (remote.world.step label).map (fun world => { remote with world }))
      (if label.answers_hit then none else (remote.world.step label).map (fun world => { own with world })) := by
  split
  · exact Or.inl ⟨rfl, rfl⟩
  · apply together_of_world h.isolated rfl
    intro world hstep
    rw [World.step_limiter hother hstep]
    exact h.mirrors

/-- A policy change, with the clean-up of both storages. -/
theorem Twins.step_change (h : Twins hexdigest handlers known now drawn remote own) {time : ℚ} (hle : now ≤ time)
    (change : PolicyChange) :
    Together hexdigest handlers known time drawn (remote.step (redis_storage V hexdigest) (.change change time))
      (own.step (memory_storage V) (.change change time)) := by
  simp only [Deployment.step, h.world]
  cases hwritten : remote.world.limiter.change change with
  | error e => exact Or.inr ⟨_, _, rfl, rfl, h.world, h.mirrors.wait hle, h.isolated⟩
  | ok written =>
    obtain ⟨limiter, active_rules⟩ := written
    have hhash : (remote.storage.clean_up time change.endpoint_name active_rules).key_hash =
      remote.storage.key_hash := rfl
    apply together_of_world h.isolated hhash
    rintro world ⟨⟩
    exact h.mirrors.change hle hwritten

/-- A hit on both storages, and the answer that the request goes on with. -/
theorem Twins.step_consult (h : Twins hexdigest handlers known now drawn remote own) {env : Environment}
    (hle : now ≤ env.server_time) (hclock : env.monotonic = env.server_time)
    (hmicrosecond : Microsecond env.server_time) (hfault : env.fault = .none) (hfresh : env.uuid ∉ drawn)
    {index : Nat}
    (hcurrent : ∀ hit ∈ remote.world.due_hit index, hit.handler_name ∈ handlers ∧ hit.counter_key ∈ known ∧
      (remote.world.limiter.get_rules hit.handler_name)[hit.rule_index]? = some hit.rule ∧
      hit.ClearOn hexdigest remote.storage env.server_time) :
    Together hexdigest handlers known env.server_time (drawn ++ [env.uuid])
      (remote.step (redis_storage V hexdigest) (.consult index env))
      (own.step (memory_storage V) (.consult index env)) := by
  simp only [Deployment.step, h.world]
  cases hdue : remote.world.due_hit index with
  | none => exact Or.inl ⟨rfl, rfl⟩
  | some hit =>
    obtain ⟨hhandler, hknown, hrule, hclear⟩ := hcurrent hit hdue
    obtain ⟨⟨first, second, hfirst, hsecond, hverdict⟩, hhash, hmirrors⟩ :=
      h.mirrors.hit hle hclock hmicrosecond hfault hfresh h.isolated hhandler hrule hknown hclear
    simp only [policy.record_hit, redis_storage, memory_storage]
    revert hfirst hsecond hhash hmirrors
    generalize remote.storage.record_hit hexdigest .printed env hit.request_key hit.handler_name hit.rule_index
      hit.rule.window_seconds (some (hit.rule.count + 1)) = answered
    generalize own.storage.record_hit env.monotonic hit.request_key hit.handler_name hit.rule_index
      hit.rule.window_seconds (some (hit.rule.count + 1)) = reported
    obtain ⟨result, redis⟩ := answered
    obtain ⟨other, memory⟩ := reported
    rintro rfl rfl hhash hmirrors
    simp only [Answer.of_result]
    rw [World.step_hit_congr hdue hverdict]
    apply together_of_world h.isolated hhash
    intro world hstep
    rw [World.step_limiter (fun limiter heq => by cases heq) hstep]
    exact hmirrors

/-- The step lemma. -/
theorem Twins.step (h : Twins hexdigest handlers known now drawn remote own) {label : DeploymentLabel}
    (hreading : ∀ time ∈ label.reading, now ≤ time) (huuid : ∀ uuid ∈ label.uuid, uuid ∉ drawn)
    (hhealthy : ∀ index env, label = .consult index env →
      env.fault = .none ∧ env.monotonic = env.server_time ∧ Microsecond env.server_time)
    (hcurrent : ∀ index env, label = .consult index env → ∀ hit ∈ remote.world.due_hit index,
      hit.handler_name ∈ handlers ∧ hit.counter_key ∈ known ∧
        (remote.world.limiter.get_rules hit.handler_name)[hit.rule_index]? = some hit.rule ∧
        hit.ClearOn hexdigest remote.storage env.server_time) :
    Together hexdigest handlers known (label.reading.getD now) (drawn ++ label.uuid.toList)
      (remote.step (redis_storage V hexdigest) label) (own.step (memory_storage V) label) := by
  cases label with
  | take label =>
    rw [show drawn ++ (DeploymentLabel.take label).uuid.toList = drawn from List.append_nil drawn]
    cases label with
    | configure limiter => exact Or.inl ⟨rfl, rfl⟩
    | _ =>
      simp only [Deployment.step, h.world]
      exact h.step_take fun limiter heq => by cases heq
  | call call =>
    rw [show drawn ++ (DeploymentLabel.call call).uuid.toList = drawn from List.append_nil drawn]
    simp only [Deployment.step, h.world]
    cases hcall : call.on_policies with
    | true => exact Or.inl ⟨rfl, rfl⟩
    | false =>
      simp only [Bool.false_eq_true, if_false]
      apply together_of_world h.isolated rfl
      rintro world ⟨⟩
      exact h.mirrors.configure (remote.world.limiter.call_get_rules hcall)
  | change change time =>
    rw [show drawn ++ (DeploymentLabel.change change time).uuid.toList = drawn from List.append_nil drawn]
    exact h.step_change (hreading time rfl) change
  | consult index env =>
    obtain ⟨hfault, hclock, hmicrosecond⟩ := hhealthy index env rfl
    exact h.step_consult (hreading _ rfl) hclock hmicrosecond hfault (huuid _ rfl) (hcurrent index env rfl)

theorem Together.wait {first : Option (Deployment (RedisStorage V))}
    {second : Option (Deployment (InMemoryStorage V))}
    (h : Together hexdigest handlers known now drawn first second) {later : ℚ} (hle : now ≤ later) :
    Together hexdigest handlers known later drawn first second := by
  rcases h with hnone | ⟨next, last, hnext, hlast, htwins⟩
  · exact Or.inl hnone
  · exact Or.inr ⟨next, last, hnext, hlast, htwins.world, htwins.mirrors.wait hle, htwins.isolated⟩

/-- The run lemma. -/
theorem together_of_run (hinit : ∀ now, Twins hexdigest handlers known now [] remote own)
    {labels : List DeploymentLabel} (hsteady : Steady hexdigest handlers known remote labels)
    (hnow : ∀ time ∈ labels.filterMap DeploymentLabel.reading, time ≤ now) :
    Together hexdigest handlers known now (labels.filterMap DeploymentLabel.uuid)
      (execute (step (redis_storage V hexdigest)) remote labels)
      (execute (step (memory_storage V)) own labels) := by
  induction labels using List.reverseRecOn generalizing now with
  | nil => exact Or.inr ⟨remote, own, rfl, rfl, hinit now⟩
  | append_singleton earlier label ih =>
    have hmono := hsteady.mono
    have huuids := hsteady.uuids
    rw [List.filterMap_append] at hmono huuids hnow ⊢
    obtain ⟨-, -, hlast⟩ := List.pairwise_append.mp hmono
    have hlabel : label ∈ earlier ++ [label] := by simp
    -- Before the last step the clock was at its reading, if it has one.
    have hbefore : ∀ time ∈ earlier.filterMap DeploymentLabel.reading, time ≤ label.reading.getD now := by
      intro time htime
      cases hreading : label.reading with
      | none => exact hnow time (List.mem_append_left _ htime)
      | some last => exact hlast time htime last (by simp [hreading])
    have hpresent : label.reading.getD now ≤ now := by
      cases hreading : label.reading with
      | none => exact le_refl now
      | some last => exact hnow last (by simp [hreading])
    rw [execute_append, execute_append]
    rcases ih hsteady.before hbefore with ⟨hremote, hown⟩ | ⟨next, later, hremote, hown, htwins⟩
    · exact Or.inl ⟨by rw [hremote]; rfl, by rw [hown]; rfl⟩
    · have hreading : ∀ time ∈ label.reading, label.reading.getD now ≤ time := by
        rintro time htime
        rw [htime, Option.getD_some]
      have huuid : ∀ uuid ∈ label.uuid, uuid ∉ earlier.filterMap DeploymentLabel.uuid := by
        intro uuid hdrawn hmem
        exact (List.nodup_append.mp huuids).2.2 uuid hmem uuid (by simpa using hdrawn) rfl
      have hstep := htwins.step hreading huuid (fun index env heq => hsteady.healthy index env (heq ▸ hlabel))
        (fun index env heq => hsteady.current earlier index env [] (by rw [heq]) next hremote)
      have hsame : label.reading.getD (label.reading.getD now) = label.reading.getD now := by
        cases label.reading <;> rfl
      have hdrawn : [label].filterMap DeploymentLabel.uuid = label.uuid.toList := by
        cases huuid : label.uuid <;> simp [huuid]
      rw [hsame] at hstep
      rw [hremote, hown, hdrawn]
      simp only [Option.bind_some, execute_cons, execute_nil, Option.bind_fun_some]
      exact hstep.wait hpresent

end Comparison

def minute_policy (now : ℚ) : DeploymentLabel := .change (.update_policy "report" [.one_per_minute]) now

/-- Three visits in a minute, where the policy was installed anew after the first
    one. -/
def visits_and_update : List DeploymentLabel :=
  [minute_policy 1700000000, .take (.arrive Application.report_visit), .consult 0 (.healthy 1700000001 "a"),
    minute_policy 1700000002, .take (.arrive Application.report_visit), .consult 1 (.healthy 1700000003 "b"),
    .take (.arrive Application.report_visit), .consult 2 (.healthy 1700000004 "c")]

def visited_redis (labels : List DeploymentLabel) : Option (Deployment (RedisStorage PlainValue)) :=
  execute (step (redis_storage PlainValue id)) ⟨.init .init, .default⟩ labels

def visit_hit : DueHit := ⟨"192.0.2.1", "report", 0, .one_per_minute⟩

/-- Where a visit is counted, the rule it counts for is installed. -/
theorem visits_and_update_due {position index : Nat} {env : Environment}
    (hlabel : visits_and_update[position]? = some (.consult index env)) :
    (visited_redis (visits_and_update.take position)).map (fun state =>
      (state.world.due_hit index, state.world.limiter.get_rules "report")) =
        some (some visit_hit, [.one_per_minute]) := by
  have hposition : position < 8 := (List.getElem?_eq_some_iff.mp hlabel).1
  interval_cases position <;> cases hlabel <;> rfl

/-- A whole second with ten digits is a time of whole microseconds, and fourteen
    digits show it. -/
theorem healthy_whole_second {seconds : ℤ} (hlow : 10 ^ 9 ≤ seconds) (hhigh : seconds < 10 ^ 10) (uuid : String) :
    Microsecond (Environment.healthy seconds uuid).server_time ∧
      g_format 14 (Environment.healthy seconds uuid).server_time =
        (Environment.healthy seconds uuid).server_time := by
  have htime : (Environment.healthy (seconds : ℚ) uuid).server_time = seconds := rfl
  have hlow_time : (10 : ℚ) ^ 9 ≤ seconds := by exact_mod_cast hlow
  have hhigh_time : (seconds : ℚ) < 10 ^ 10 := by exact_mod_cast hhigh
  rw [htime]
  refine ⟨⟨⟨seconds * 10 ^ 6, by push_cast; rfl⟩, hlow_time, hhigh_time⟩, ?_⟩
  exact g_format_of_decimal 10 0 (by decide) (n := seconds) (by rw [pow_zero, mul_one]) (by linarith) hhigh_time

/-- The visits are at whole seconds. -/
theorem visits_and_update_whole {index : Nat} {env : Environment} (hmem : .consult index env ∈ visits_and_update) :
    ∃ (seconds : ℤ) (uuid : String), env = .healthy seconds uuid ∧ 10 ^ 9 ≤ seconds ∧ seconds < 10 ^ 10 := by
  simp only [visits_and_update, minute_policy, List.mem_cons, List.not_mem_nil, or_false, reduceCtorEq, false_or,
    DeploymentLabel.consult.injEq] at hmem
  rcases hmem with ⟨-, rfl⟩ | ⟨-, rfl⟩ | ⟨-, rfl⟩
  · exact ⟨1700000001, "a", by norm_num, by norm_num, by norm_num⟩
  · exact ⟨1700000003, "b", by norm_num, by norm_num, by norm_num⟩
  · exact ⟨1700000004, "c", by norm_num, by norm_num, by norm_num⟩

theorem visits_and_update_steady :
    Steady (V := PlainValue) id {"report"} {visit_hit.counter_key} ⟨.init .init, .default⟩ visits_and_update where
  mono := by decide +kernel
  uuids := by decide +kernel
  healthy := by
    intro index env hmem
    obtain ⟨seconds, uuid, rfl, hlow, hhigh⟩ := visits_and_update_whole hmem
    exact ⟨rfl, rfl, (healthy_whole_second hlow hhigh uuid).1⟩
  current := by
    intro earlier index env later hsplit state hstate hit hdue
    have hlabel : visits_and_update[earlier.length]? = some (.consult index env) := by simp [hsplit]
    have htake : visits_and_update.take earlier.length = earlier := by simp [hsplit]
    have hfound := visits_and_update_due hlabel
    simp only [visited_redis, htake, hstate, Option.map_some, Option.some.injEq, Prod.mk.injEq] at hfound
    obtain ⟨hhit, hrules⟩ := hfound
    cases hdue.symm.trans hhit
    have hinstalled : state.world.limiter.get_rules visit_hit.handler_name = [.one_per_minute] := hrules
    refine ⟨rfl, Finset.mem_singleton_self _, by rw [hinstalled]; rfl, ?_⟩
    obtain ⟨seconds, uuid, rfl, hlow, hhigh⟩ := visits_and_update_whole (List.mem_of_getElem? hlabel)
    exact fun _ _ _ _ _ => not_separated_of_printed (healthy_whole_second hlow hhigh uuid).2 _

def is_invoked (task : Task) : Bool := .app_invoked none none ∈ task.log

end Deployment

end response_bandwidth_limiter.middleware

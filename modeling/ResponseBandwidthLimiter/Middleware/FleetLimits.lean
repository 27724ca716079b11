import ResponseBandwidthLimiter.Backends.Manager.SharedWindow
import ResponseBandwidthLimiter.Backends.Redis.Outages
import ResponseBandwidthLimiter.Middleware.Fleet

open collections
open response_bandwidth_limiter.base response_bandwidth_limiter.models response_bandwidth_limiter.policy
open response_bandwidth_limiter.limiter response_bandwidth_limiter.memory response_bandwidth_limiter.redis
open response_bandwidth_limiter.ip_manager response_bandwidth_limiter.manager

namespace response_bandwidth_limiter.base

variable {V : Type}

/-- What the caller of `record_hit` gets. -/
def Reply.hit_result (reply : Except PyError (Reply V)) : Option (Except PyError SlidingWindowResult) :=
  match reply with
  | .ok (.hit result) => some (.ok result)
  | .ok _ => none
  | .error error => some (.error error)

theorem Reply.over_of_not_within {count : ℤ} {reply : Except PyError (Reply V)} {result : SlidingWindowResult}
    (hover : Reply.within count reply = false) (hresult : Reply.hit_result reply = some (.ok result)) :
    count < result.hit_count := by
  unfold Reply.hit_result at hresult
  split at hresult
  · cases hresult
    exact not_le.mp (of_decide_eq_false hover)
  · cases hresult
  · cases hresult

end response_bandwidth_limiter.base

namespace response_bandwidth_limiter.middleware

variable {V : Type} [PyValue V] {request_key handler_name : String} {rule_index : Nat} {rules : List Rule}
  {rule : Rule} {known : Finset CounterKey}

/-- An `InMemoryStorage` in the process of the middlewares. -/
def memory_backend (V : Type) [PyValue V] :
    Backend (InMemoryStorage V) ℚ (Access V) (Access V × Except PyError (Reply V)) where
  hit _ now request_key handler_name rule_index rule :=
    ⟨now, .record_hit request_key handler_name rule_index rule.window_seconds (some (rule.count + 1))⟩
  perform := InMemoryStorage.answer
  result entry := Reply.hit_result entry.2

/-- The server with one `RedisStorage` in the process of each middleware. -/
def redis_backend (lib : Libraries V) (tostring : ℚ → ℚ) :
    Backend (Cluster V) Environment (ClusterCall V) (ClusterOutcome V) where
  hit worker env request_key handler_name rule_index rule :=
    ⟨worker, env, .record_hit request_key handler_name rule_index rule.window_seconds (some (rule.count + 1))⟩
  perform := Cluster.perform lib tostring
  result outcome := Reply.hit_result outcome.result

/-- The dictionary of a manager with one `ManagerStorage` in the process of each
    middleware, read at `time.time` and the storages' clock. -/
def manager_backend {Address U : Type} [PyFloat U] (lib : IpLibrary Address) :
    Backend (SharedStorage U) (ℚ × ℚ) (ProcessCall U) (ProcessCall U × Except PyError (Reply U)) where
  hit worker clocks request_key handler_name rule_index rule :=
    ⟨worker, clocks.1, clocks.2,
      .storage (.record_hit request_key handler_name rule_index rule.window_seconds (some (rule.count + 1)))⟩
  perform store call := ((call, (store.perform lib call).1), (store.perform lib call).2)
  result entry := Reply.hit_result entry.2

/-- A hit of a counter in a window. -/
def in_memory_window (counter_key : CounterKey) (window_seconds : ℤ) (last : ℚ)
    (entry : Access V × Except PyError (Reply V)) : Bool :=
  entry.1.hits counter_key && (last - window_seconds < entry.1.now && entry.1.now ≤ last)

/-- A request of some client for a handler with a policy. -/
def call_of (client : String) : Request where
  client_ip := none
  handler_names _ := ["item"]
  scope_identifiers _ _ := .ok (OrderedDict.empty.set "ip" client)
  extensions := none

def one_per_minute : Limiter := { Limiter.init with route_policies := OrderedDict.empty.set "item" [.one_per_minute] }

/-- Two requests of one client and one of another, where the evaluations overlap. -/
def three_requests : List (FleetLabel ℚ (Access PlainValue)) :=
  [.take 0 (.arrive (call_of "10.0.0.1")), .take 1 (.arrive (call_of "10.0.0.1")), .consult 1 0 0,
    .take 0 (.arrive (call_of "10.0.0.2")), .consult 0 0 1, .consult 0 1 2]

def three_requests_run :
    Option (Fleet (InMemoryStorage PlainValue) (Access PlainValue) (Access PlainValue × Except PyError (Reply PlainValue))) :=
  execute (Fleet.step (memory_backend PlainValue)) (.init (.fresh ⟨10, by decide⟩ ⟨10, by decide⟩) (fun _ => one_per_minute))
    three_requests

/-- The hit of a client, as the storage is called for it. -/
def minute_hit (now : ℚ) (client : String) : Access PlainValue :=
  ⟨now, .record_hit client "item" 0 Rule.one_per_minute.window_seconds (some (Rule.one_per_minute.count + 1))⟩

/-- A hit of a counter in a window. -/
def in_cluster_window (counter_key : CounterKey) (window_seconds : ℤ) (last : ℚ) (outcome : ClusterOutcome V) : Bool :=
  outcome.call.access.hits counter_key && outcome.in_window window_seconds last

/-- The same across processes that share a server, through every outage: in every
    window at most as many requests of a client call the application as the
    limit allows once on the server and once in the memory of each worker that
    fell back, and as many as the open workers let pass unseen, as long as no
    clean-up takes the counter and the fallbacks have room. -/
theorem requests_within_outage_limit {lib : Libraries V} {tostring : ℚ → ℚ} {cluster : Cluster V}
    {keyspace : String} {key_hash : Bool} (hbegins : cluster.Begins keyspace key_hash known)
    {limiters : Nat → Limiter} {labels : List (FleetLabel Environment (ClusterCall V))}
    {fleet : Fleet (Cluster V) (ClusterCall V) (ClusterOutcome V)}
    (hrun : execute (Fleet.step (redis_backend lib tostring)) (.init cluster limiters) labels = some fleet)
    (hpolicy : ∀ worker, (limiters worker).get_rules handler_name = rules)
    (hkeeps : ∀ worker own, .take worker own ∈ labels → own.KeepsRules handler_name rules)
    (hrule : rules[rule_index]? = some rule) (hprevails : Prevails rules rule) {offset : Nat → ℚ}
    (hcalls : Cluster.Undisturbed fleet.calls (request_key, handler_name, rule_index) rule known offset)
    (huuids : (fleet.calls.map (fun call => call.env.uuid)).Nodup)
    (hkeys : ∀ hit ∈ cluster.run lib tostring fleet.calls,
      hit.call.access.hits (request_key, handler_name, rule_index) = true →
      ∀ outcome ∈ cluster.run lib tostring fleet.calls,
        outcome.counter_key lib.hexdigest = hit.counter_key lib.hexdigest → outcome.Carries rule) (last : ℚ) :
    let admitted := (cluster.run lib tostring fleet.calls).filter
      (·.admitted (request_key, handler_name, rule_index) rule last)
    (fleet.passed (in_cluster_window (request_key, handler_name, rule_index) rule.window_seconds last)).length ≤
      rule.count.toNat + (admitted.filter ClusterOutcome.passed_open).length +
        ((admitted.filter ClusterOutcome.fell_back).map (fun outcome => outcome.call.worker)).dedup.length *
          rule.count.toNat := by
  intro admitted
  have htells : Fleet.Tells (redis_backend lib tostring) handler_name rule_index rule
      (in_cluster_window (request_key, handler_name, rule_index) rule.window_seconds last)
      (fun outcome => Reply.within rule.count outcome.result) := by
    refine ⟨?_, fun _ _ hover hresult => Reply.over_of_not_within hover hresult⟩
    intro store worker env key name index other hcounted
    have hhits := ((Bool.and_eq_true _ _).mp hcounted).1
    simp only [redis_backend, Cluster.perform, ClusterCall.access, Access.hits, decide_eq_true_eq,
      Prod.mk.injEq] at hhits
    exact hhits.2
  refine (Fleet.passed_le hrun htells hpolicy hkeeps hrule hprevails).trans ?_
  exact Cluster.admitted_countP_le hbegins hcalls huuids hkeys last

/-- Three requests of one client on two open workers; the server does not answer
    the last one. -/
def through_an_outage : List (FleetLabel Environment (ClusterCall PlainValue)) :=
  [.take 0 (.arrive (call_of "10.0.0.1")), .take 1 (.arrive (call_of "10.0.0.1")),
    .take 1 (.arrive (call_of "10.0.0.1")), .consult 1 0 (.healthy 0 "a"), .consult 0 0 (.healthy 1 "b"),
    .consult 1 1 { Environment.healthy 2 "c" with fault := .before }]

def through_an_outage_run :
    Option (Fleet (Cluster PlainValue) (ClusterCall PlainValue) (ClusterOutcome PlainValue)) :=
  execute (Fleet.step (redis_backend .plain id)) (.init Cluster.two_workers (fun _ => one_per_minute)) through_an_outage

def is_minute_hit (call : ClusterCall PlainValue) : Bool :=
  match call.operation with
  | .record_hit request_key handler_name rule_index window_seconds max_hits =>
    (request_key, handler_name, rule_index, window_seconds, max_hits) = ("10.0.0.1", "item", 0, 60, some 2)
  | _ => false

theorem operation_of_minute_hit {call : ClusterCall PlainValue} (hhit : is_minute_hit call = true) :
    call.operation = (minute_hit 0 "10.0.0.1").operation := by
  unfold is_minute_hit at hhit
  split at hhit
  · next hoperation =>
    rw [decide_eq_true_eq, Prod.mk.injEq, Prod.mk.injEq, Prod.mk.injEq, Prod.mk.injEq] at hhit
    obtain ⟨rfl, rfl, rfl, rfl, rfl⟩ := hhit
    exact hoperation
  · cases hhit

theorem requests_within_outage_limit_two_workers :
    ∃ fleet, through_an_outage_run = some fleet ∧
      fleet.reached_app 1 0 ∧ ¬ fleet.reached_app 0 0 ∧ fleet.reached_app 1 1 ∧
      let admitted := (Cluster.two_workers.run .plain id fleet.calls).filter
        (·.admitted ("10.0.0.1", "item", 0) .one_per_minute 59)
      (fleet.passed (in_cluster_window ("10.0.0.1", "item", 0) 60 59)).length ≤
        1 + (admitted.filter ClusterOutcome.passed_open).length +
          ((admitted.filter ClusterOutcome.fell_back).map (fun outcome => outcome.call.worker)).dedup.length * 1 := by
  have hseen : through_an_outage_run.map (fun fleet =>
      ((fleet.reached_app 1 0, fleet.reached_app 0 0, fleet.reached_app 1 1), fleet.calls.all is_minute_hit,
        fleet.calls.map (fun call => (call.env.server_time, call.env.monotonic, call.env.uuid)))) =
      some ((true, false, true), true, [(0, 0, "a"), (1, 1, "b"), (2, 2, "c")]) := by
    decide +kernel
  obtain ⟨fleet, hrun, hfleet⟩ := Option.map_eq_some_iff.mp hseen
  simp only [Prod.mk.injEq] at hfleet
  obtain ⟨⟨hfirst, hsecond, hthird⟩, hhits, htimes⟩ := hfleet
  refine ⟨fleet, hrun, hfirst, by simp [hsecond], hthird, ?_⟩
  have hoperation : ∀ call ∈ fleet.calls, call.operation = (minute_hit 0 "10.0.0.1").operation :=
    fun call hcall => operation_of_minute_hit (List.all_eq_true.mp hhits call hcall)
  have hbegins : Cluster.two_workers.Begins "rbl" false {("10.0.0.1", "item", 0)} :=
    ⟨fun _ => ⟨rfl, rfl⟩, fun _ => rfl, fun _ => rfl, fun _ => rfl, fun _ => PNat.pos _⟩
  have hundisturbed : Cluster.Undisturbed fleet.calls ("10.0.0.1", "item", 0) .one_per_minute
      {("10.0.0.1", "item", 0)} (fun _ => 0) := by
    refine ⟨?_, ?_, ?_, ?_, ?_⟩
    · have hmono : (fleet.calls.map (fun call => (call.env.server_time, call.env.monotonic, call.env.uuid))).Pairwise
          (fun first second => first.1 ≤ second.1) := by
        rw [htimes]
        decide +kernel
      rwa [List.pairwise_map] at hmono
    · have hclock : ∀ reading ∈ fleet.calls.map
          (fun call => (call.env.server_time, call.env.monotonic, call.env.uuid)),
          reading.2.1 = reading.1 + 0 := by
        rw [htimes]
        decide +kernel
      exact fun call hcall => hclock _ (List.mem_map_of_mem hcall)
    · intro call hcall query hquery
      simp only [ClusterCall.access, Access.hits, hoperation call hcall, minute_hit, decide_eq_true_eq] at hquery
      simp [← hquery]
    · exact fun call hcall _ => hoperation call hcall
    · intro call hcall
      simp only [Access.Keeps, ClusterCall.access, hoperation call hcall, minute_hit]
  have hpolicy : one_per_minute.get_rules "item" = [.one_per_minute] := rfl
  have hprevails : Prevails [.one_per_minute] .one_per_minute :=
    prevails_of_reject (fun other hother =>
      Or.inr (Or.inl ⟨.default, by rw [List.mem_singleton.mp hother]; rfl⟩)) rfl
  refine requests_within_outage_limit hbegins hrun (fun _ => hpolicy) ?_ rfl hprevails hundisturbed ?_ ?_ 59
  · intro worker own hown
    simp only [through_an_outage, List.mem_cons, List.not_mem_nil, or_false, reduceCtorEq,
      FleetLabel.take.injEq] at hown
    rcases hown with ⟨-, rfl⟩ | ⟨-, rfl⟩ | ⟨-, rfl⟩ <;> exact trivial
  · have huuids := congrArg (List.map (fun reading => reading.2.2)) htimes
    rw [List.map_map] at huuids
    exact huuids ▸ (by decide)
  · intro hit hmem _ outcome houtcome _
    exact ⟨_, _, _, hoperation _ (Cluster.call_mem houtcome)⟩

section Shared

variable {Address U : Type} [PyFloat U] {lib : IpLibrary Address}

/-- A hit of a counter at a time of a kind. -/
def shared_hit_during (counter_key : CounterKey) (during : ℚ → Bool)
    (entry : ProcessCall U × Except PyError (Reply U)) : Bool :=
  entry.1.hits counter_key && during entry.1.time

/-- Three requests of one client in two processes, the last one in the next
    interval. -/
def across_intervals : List (FleetLabel (ℚ × ℚ) (ProcessCall ClockedValue)) :=
  [.take 0 (.arrive (call_of "10.0.0.1")), .take 1 (.arrive (call_of "10.0.0.1")),
    .take 1 (.arrive (call_of "10.0.0.1")), .consult 1 0 (90, 0), .consult 0 0 (91, 1), .consult 1 1 (120, 30)]

def across_intervals_run :
    Option (Fleet (SharedStorage ClockedValue) (ProcessCall ClockedValue)
      (ProcessCall ClockedValue × Except PyError (Reply ClockedValue))) :=
  execute (Fleet.step (manager_backend IpLibrary.documentation)) (.init .init (fun _ => one_per_minute)) across_intervals

/-- The hit of the client, as a process calls the storage for it. -/
def shared_minute_hit (process : Nat) (now : ℚ) : ProcessCall ClockedValue :=
  ⟨process, now + 90, now, .storage
    (.record_hit "10.0.0.1" "item" 0 Rule.one_per_minute.window_seconds (some (Rule.one_per_minute.count + 1)))⟩

def is_shared_minute_hit (call : ProcessCall ClockedValue) : Bool :=
  match call.event with
  | .storage (.record_hit request_key handler_name rule_index window_seconds max_hits) =>
    (request_key, handler_name, rule_index, window_seconds, max_hits, call.time) =
      ("10.0.0.1", "item", 0, 60, some 2, call.now + 90)
  | _ => false

theorem eq_shared_minute_hit {call : ProcessCall ClockedValue} (hhit : is_shared_minute_hit call = true) :
    call = shared_minute_hit call.process call.now := by
  obtain ⟨process, time, now, event⟩ := call
  unfold is_shared_minute_hit at hhit
  split at hhit
  · next hevent =>
    simp only [decide_eq_true_eq, Prod.mk.injEq] at hhit hevent
    obtain ⟨rfl, rfl, rfl, rfl, rfl, rfl⟩ := hhit
    rw [hevent]
    rfl
  · cases hhit

theorem shared_minute_hits_untouched {calls : List (ProcessCall ClockedValue)}
    (hcalls : ∀ call ∈ calls, is_shared_minute_hit call = true)
    (hordered : calls.Pairwise (fun first second => first.now ≤ second.now)) :
    Untouched ("10.0.0.1", "item", 0) Rule.one_per_minute.window_seconds 90 calls where
  ordered := hordered
  spares call hcall operation hevent key hkey := by
    rw [eq_shared_minute_hit (hcalls call hcall)] at hevent
    cases hevent
    cases hkey
  hits call hcall _ := by
    rw [eq_shared_minute_hit (hcalls call hcall)]
    refine ⟨⟨_, rfl⟩, le_refl _, ?_⟩
    exact lt_add_of_pos_right _ (by exact_mod_cast Rule.one_per_minute.window_seconds_pos)
  others call hcall hhits := by
    rw [eq_shared_minute_hit (hcalls call hcall)] at hhits
    simp [shared_minute_hit, ProcessCall.hits, Access.hits] at hhits

end Shared

end response_bandwidth_limiter.middleware

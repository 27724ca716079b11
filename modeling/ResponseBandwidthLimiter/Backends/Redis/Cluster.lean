import ResponseBandwidthLimiter.Backends.CounterKeys
import ResponseBandwidthLimiter.Backends.Manager.FixedWindow
import ResponseBandwidthLimiter.Backends.Redis.Controls
import ResponseBandwidthLimiter.Backends.Redis.Window
import ResponseBandwidthLimiter.SlidingWindow.Shared

open collections sliding_window
open response_bandwidth_limiter.base response_bandwidth_limiter.models response_bandwidth_limiter.memory
open response_bandwidth_limiter.counter_keys

namespace response_bandwidth_limiter.redis

/-- What the server holds of a counter covers the hits it has admitted: a sorted
    set that outlives its window, or nothing. The members were drawn before. -/
structure Server.Counts (server : Server) (key : String) (rule : Rule) (now : ℚ) (drawn : List String)
    (past : List ℚ) : Prop where
  stored : ∃ counter : Counter, Covers (rule.window_seconds : ℚ) rule.count.toNat now counter.scores past ∧
    counter.members ⊆ drawn ∧
    ((server key = none ∧ counter = .empty) ∨ ∃ expires_at, server key = some ⟨.sorted_set counter, some expires_at⟩ ∧
      ∀ time ∈ counter.scores, time + rule.window_seconds ≤ expires_at)

namespace Server

variable {self other : Server} {key : String} {rule : Rule} {now : ℚ} {drawn : List String} {past : List ℚ}

theorem Counts.of_absent (habsent : self key = none) (rule : Rule) (now : ℚ) : self.Counts key rule now [] [] :=
  ⟨.empty, Covers.nil _ _ _, by simp, Or.inl ⟨habsent, rfl⟩⟩

theorem Counts.congr (h : self.Counts key rule now drawn past) (hsame : other key = self key) :
    other.Counts key rule now drawn past := by
  obtain ⟨counter, hcovers, hmembers, hstored⟩ := h.stored
  exact ⟨counter, hcovers, hmembers, hsame ▸ hstored⟩

theorem Counts.wait (h : self.Counts key rule now drawn past) {later : ℚ} (hle : now ≤ later) :
    self.Counts key rule later drawn past := by
  obtain ⟨counter, hcovers, hmembers, hstored⟩ := h.stored
  exact ⟨counter, hcovers.wait hle, hmembers, hstored⟩

theorem Counts.draw (h : self.Counts key rule now drawn past) (uuid : String) :
    self.Counts key rule now (drawn ++ [uuid]) past := by
  obtain ⟨counter, hcovers, hmembers, hstored⟩ := h.stored
  exact ⟨counter, hcovers, List.subset_append_of_subset_left _ hmembers, hstored⟩

theorem Counts.of_sublist (h : self.Counts key rule now drawn past) {fewer : List ℚ} (hfewer : fewer.Sublist past) :
    self.Counts key rule now drawn fewer := by
  obtain ⟨counter, hcovers, hmembers, hstored⟩ := h.stored
  exact ⟨counter, hcovers.of_sublist hfewer, hmembers, hstored⟩

/-- A key that holds a counter stays as it is, or the counter expires, with
    nothing left that its window would count. -/
theorem expire_keys_of_stored {counter : Counter} {window_seconds : ℤ}
    (hkept : (self key = none ∧ counter = .empty) ∨
      ∃ expires_at, self key = some ⟨.sorted_set counter, some expires_at⟩ ∧
        ∀ time ∈ counter.scores, time + window_seconds ≤ expires_at) (contact : Contact) :
    self.expire_keys contact key = self key ∨
      (self.expire_keys contact key = none ∧ ∀ time ∈ counter.scores, time + window_seconds ≤ contact.server_time) := by
  rcases hkept with ⟨habsent, -⟩ | ⟨expires_at, hstored, hexpires⟩
  · exact Or.inl (by simp [Server.expire_keys, habsent])
  · rcases expire_keys_of_some hstored contact with hsame | ⟨hgone, hexpired⟩
    · exact Or.inl (hsame.trans hstored.symm)
    · have hpassed : expires_at ≤ contact.server_time := by simpa [Timed.alive] using hexpired
      exact Or.inr ⟨hgone, fun time htime => (hexpires time htime).trans hpassed⟩

theorem Counts.expire_keys (h : self.Counts key rule now drawn past) (contact : Contact)
    (hle : now ≤ contact.server_time) :
    (self.expire_keys contact).Counts key rule contact.server_time drawn past := by
  obtain ⟨counter, hcovers, hmembers, hkept⟩ := h.stored
  rcases expire_keys_of_stored hkept contact with hsame | ⟨hgone, hpassed⟩
  · exact (h.wait hle).congr hsame
  · exact ⟨.empty, hcovers.forget hle fun time htime => by linarith [hpassed time htime], by simp,
      Or.inl ⟨hgone, rfl⟩⟩

theorem call_spared {R : Type} {command : Command R} (hspares : command.Spares key) (self : Server)
    (contact : Contact) : (self.call contact command).2 key = self.expire_keys contact key := by
  unfold call
  cases contact.fault with
  | none => exact hspares _
  | before => rfl
  | after => exact hspares _

/-- The script on a key that holds a counter, or nothing: what it replies, and
    the counter it leaves, which outlives its window. -/
theorem eval_of_stored {numerals : Numerals} {Known : ℚ → Prop} {counter : Counter} {window_seconds : ℤ}
    (hfaithful : numerals.Faithful window_seconds Known) (hnow : Known now)
    (hkept : (self key = none ∧ counter = .empty) ∨
      ∃ expires_at, self key = some ⟨.sorted_set counter, some expires_at⟩ ∧
        ∀ time ∈ counter.scores, time + window_seconds ≤ expires_at)
    (hmembers : counter.members ⊆ drawn) (hscores : ∀ time ∈ counter.scores, Known time ∧ time ≤ now)
    {uuid : String} (hfresh : uuid ∉ drawn) {max_hits : Option ℤ} (hmax : ∀ limit ∈ max_hits, 2 ≤ limit)
    {stored : List ℚ}
    (hrecord : record (window_seconds : ℚ) (InMemoryStorage.capacity max_hits) counter.scores now = stored) :
    ∃ (next : Server) (oldest retry : ℚ) (left : Counter),
      Server.eval numerals now key window_seconds uuid (max_hits.getD 0) self =
        (some ⟨stored.length, [.number oldest, .number (numerals.tostring now), .number retry]⟩, next) ∧
      policy.retry_hit (InMemoryStorage.hit_result now max_hits stored) = some retry ∧
      left.scores = stored ∧ left.members ⊆ drawn ++ [uuid] ∧
      ∃ expires_at, next key = some ⟨.sorted_set left, some expires_at⟩ ∧
        ∀ time ∈ stored, time + window_seconds ≤ expires_at := by
  have hcounter : self.counter key = some counter := by
    rcases hkept with ⟨habsent, rfl⟩ | ⟨expires_at, hpresent, -⟩
    · simp [Server.counter, habsent]
    · simp [Server.counter, hpresent]
  have hnew : uuid ∉ counter.members := fun hmem => hfresh (hmembers hmem)
  have hleft := (sliding_window_script_scores hfaithful hnow hscores hnew hmax).trans hrecord
  obtain ⟨oldest, retry, hreply, -, hretry⟩ :=
    sliding_window_script_reply hfaithful hnow hscores hnew hmax hrecord
  have hsubset := sliding_window_script_members numerals now counter window_seconds uuid (max_hits.getD 0)
  let script := sliding_window_script numerals now counter window_seconds uuid (max_hits.getD 0)
  refine ⟨Function.update self key (some ⟨.sorted_set script.2.1, some (now + script.2.2)⟩), oldest, retry,
    script.2.1, ?_, hretry, hleft, fun member hmember => ?_, _, Function.update_self _ _ _, fun time htime => ?_⟩
  · rw [eval_of_counter hcounter]
    simp only [hreply]
    rfl
  · rcases List.mem_cons.mp (hsubset hmember) with rfl | hold
    · simp
    · exact List.mem_append_left _ (hmembers hold)
  · have hbound : time ≤ now := by
      rw [← hrecord] at htime
      rcases mem_of_mem_record htime with hbefore | hlast
      · exact (hscores time hbefore).2
      · exact le_of_eq hlast
    have hwindow : (window_seconds : ℚ) ≤ (max 1 window_seconds : ℤ) := by
      exact_mod_cast le_max_right 1 window_seconds
    change time + (window_seconds : ℚ) ≤ now + (max 1 window_seconds : ℤ)
    linarith

/-- The number of hits that are stored when the script returns. -/
theorem Counts.eval (h : self.Counts key rule now drawn past) (tostring : ℚ → ℚ) {uuid : String}
    (hfresh : uuid ∉ drawn) :
    ∃ (next : Server) (stored : List ℚ) (oldest retry : ℚ),
      Server.eval (.exact tostring) now key rule.window_seconds uuid (rule.count + 1) self =
        (some ⟨stored.length, [.number oldest, .number (tostring now), .number retry]⟩, next) ∧
      next.Counts key rule now (drawn ++ [uuid])
        (if (stored.length : ℤ) ≤ rule.count then past ++ [now] else past) := by
  obtain ⟨counter, hcovers, hmembers, hkept⟩ := h.stored
  have hrecorded := hcovers.record (le_refl now)
  obtain ⟨next, oldest, retry, left, heval, -, hleft, hdrawn, hpresent⟩ :=
    eval_of_stored (Numerals.exact_faithful tostring rule.window_seconds) trivial hkept hmembers
      (fun time htime => ⟨trivial, hcovers.history_le time htime⟩) hfresh (two_le_cap rule) rfl
  rw [InMemoryStorage.capacity_rule] at heval hleft hpresent
  refine ⟨next, _, oldest, retry, heval, ?_⟩
  have hcount : ((record (rule.window_seconds : ℚ) (some (rule.count.toNat + 1)) counter.scores now).length : ℤ) ≤
      rule.count ↔
      (record (rule.window_seconds : ℚ) (some (rule.count.toNat + 1)) counter.scores now).length ≤
        rule.count.toNat := by
    have hpos := rule.count_pos
    omega
  simp only [hcount]
  exact ⟨left, hleft ▸ hrecorded, hdrawn, Or.inr (hleft ▸ hpresent)⟩

end Server

namespace RedisStorage

variable {V : Type}

/-- A later state with the same settings and generations. -/
structure SameSettings (earlier later : RedisStorage V) : Prop where
  key_prefix : later.key_prefix = earlier.key_prefix
  key_hash : later.key_hash = earlier.key_hash
  counter_failure_mode : later.counter_failure_mode = earlier.counter_failure_mode
  handler_generations : later.handler_generations = earlier.handler_generations

/-- What an operation on a value may do: it calls the server for its own key, and
    asks a fallback, whose counters it leaves alone. -/
structure ValueStep (env : Environment) (key : String) (earlier later : RedisStorage V) : Prop
    extends SameSettings earlier later where
  spared : ∀ other, other ≠ earlier.build_data_key key →
    later.client other = earlier.client other ∨ later.client other = earlier.client.expire_keys env.toContact other
  counters : earlier.counter_fallback_storage.SameCounters later.counter_fallback_storage

section Values

variable {env : Environment} {key : String} {self next : RedisStorage V}

theorem ValueStep.refl : ValueStep env key self self :=
  ⟨⟨rfl, rfl, rfl, rfl⟩, fun _ _ => Or.inl rfl, rfl, rfl⟩

theorem ValueStep.of_send {R : Type} {command : Server.Command R} {reply : Option R}
    (hspares : ∀ other, other ≠ self.build_data_key key → command.Spares other)
    (hsend : self.send env command = (reply, next)) : ValueStep env key self next := by
  cases hsend
  exact ⟨⟨rfl, rfl, rfl, rfl⟩, fun other hne => Or.inr (Server.call_spared (hspares other hne) _ _), rfl, rfl⟩

/-- A failure handler comes after the call of the server and leaves the server
    alone. -/
theorem ValueStep.handle_failure (h : ValueStep env key self next) {R : Type} (named : String) (on_open : R)
    {fallback : InMemoryStorage V → Except PyError R × InMemoryStorage V}
    (hfallback : ∀ storage : InMemoryStorage V, storage.SameCounters (fallback storage).2) :
    ValueStep env key self (next.handle_failure named on_open fallback).2 := by
  have hcounters : ValueStep env key self (next.on_counter_fallback fallback).2 := by
    obtain ⟨hstored, hroom⟩ := hfallback next.counter_fallback_storage
    exact ⟨⟨ h.key_prefix, h.key_hash, h.counter_failure_mode, h.handler_generations⟩, h.spared,
      hstored.trans h.counters.1, hroom.trans h.counters.2⟩
  unfold RedisStorage.handle_failure
  split
  · split
    · unfold on_control_fallback
      split
      · exact hcounters
      · exact ⟨⟨ h.key_prefix, h.key_hash, h.counter_failure_mode, h.handler_generations⟩, h.spared, h.counters⟩
    · exact h
  · split
    · exact h
    · exact hcounters
    · exact h

variable [PyValue V] (lib : Libraries V) (numerals : Numerals)

/-- Every operation with a key is a value step. -/
theorem operate_value_step (self : RedisStorage V) (env : Environment) {operation : Operation V} {key : String}
    (hkey : operation.key = some key) :
    ValueStep env key self (self.operate lib numerals env operation).2 := by
  cases operation with
  | get read =>
    cases hkey
    have hspares := fun other (_ : other ≠ self.build_data_key key) =>
      Server.get_spares (self.build_data_key key) other
    have hfallback := fun storage : InMemoryStorage V => storage.same_counters_operate env.monotonic
      (show (Operation.get key).key = some key from rfl)
    simp only [operate, RedisStorage.get]
    split
    · next hsend => exact (ValueStep.of_send hspares hsend).handle_failure key _ hfallback
    · next hsend => exact ValueStep.of_send hspares hsend
  | set put value expire =>
    cases hkey
    have hfallback := fun storage : InMemoryStorage V => storage.same_counters_operate env.monotonic
      (show (Operation.set key value expire).key = some key from rfl)
    simp only [operate, RedisStorage.set]
    split
    · exact ValueStep.refl.handle_failure key _ hfallback
    · next text _ =>
      have hspares := fun other (hne : other ≠ self.build_data_key key) =>
        Server.set_spares env.server_time hne text expire
      split
      · next hsend => exact (ValueStep.of_send hspares hsend).handle_failure key _ hfallback
      · next hsend => exact ValueStep.of_send hspares hsend
  | incr counted expire =>
    cases hkey
    have hfallback := fun storage : InMemoryStorage V => storage.same_counters_operate env.monotonic
      (show (Operation.incr key expire).key = some key from rfl)
    simp only [operate, RedisStorage.incr]
    cases expire with
    | none =>
      have hspares := fun other (hne : other ≠ self.build_data_key key) => Server.incr_spares hne
      split
      · next hsend => exact (ValueStep.of_send hspares hsend).handle_failure key _ hfallback
      · next hsend => exact ValueStep.of_send hspares hsend
    | some seconds =>
      have hspares := fun other (hne : other ≠ self.build_data_key key) =>
        Server.incr_expire_spares env.server_time hne seconds
      split
      · next hsend => exact (ValueStep.of_send hspares hsend).handle_failure key _ hfallback
      · next hsend => exact ValueStep.of_send hspares hsend
  | delete deleted =>
    cases hkey
    have hspares := fun other (hne : other ≠ self.build_data_key key) => Server.delete_spares hne
    have hfallback := fun storage : InMemoryStorage V => storage.same_counters_operate env.monotonic
      (show (Operation.delete key).key = some key from rfl)
    simp only [operate, RedisStorage.delete]
    split
    · next hsend => exact (ValueStep.of_send hspares hsend).handle_failure key _ hfallback
    · next hsend => exact ValueStep.of_send hspares hsend
  | record_hit => cases hkey
  | cleanup_handler_counters => cases hkey
  | cleanup_orphaned_counters => cases hkey

end Values

section Hits

variable {env : Environment} {self : RedisStorage V} {key : String} {rule : Rule} {now : ℚ} {drawn : List String}
  {past : List ℚ}

/-- The call of `EVAL` for a rule, as the server comes out of it. -/
def evaluated (self : RedisStorage V) (tostring : ℚ → ℚ) (env : Environment) (key : String) (window_seconds : ℤ)
    (max_hits : Option ℤ) : Option ScriptReply × Server :=
  self.client.call env.toContact
    (Server.eval (.exact tostring) env.server_time key window_seconds env.uuid (max_hits.getD 0))

/-- A hit is answered by the server, or by the failure handler behind it. -/
theorem record_hit_eq (hexdigest : String → String) (tostring : ℚ → ℚ) (self : RedisStorage V) (env : Environment)
    (request_key handler_name : String) (rule_index : Nat) (window_seconds : ℤ) (max_hits : Option ℤ) :
    self.record_hit hexdigest (.exact tostring) env request_key handler_name rule_index window_seconds max_hits =
      let called := self.evaluated tostring env
        (self.build_counter_key hexdigest request_key handler_name rule_index) window_seconds max_hits
      match called.1 with
      | none => { self with client := called.2 }.handle_record_hit_failure env request_key handler_name rule_index
          window_seconds max_hits
      | some reply => (parse_hit_result reply, { self with client := called.2 }) := by
  simp only [record_hit, eval_hit, send, evaluated]
  cases (self.client.call env.toContact (Server.eval (.exact tostring) env.server_time
    (self.build_counter_key hexdigest request_key handler_name rule_index) window_seconds env.uuid
    (max_hits.getD 0))).1 <;> rfl

theorem evaluated_spared (tostring : ℚ → ℚ) {counted : String} (hne : key ≠ counted) (window_seconds : ℤ)
    (max_hits : Option ℤ) :
    (self.evaluated tostring env counted window_seconds max_hits).2 key =
      self.client.expire_keys env.toContact key :=
  Server.call_spared (Server.eval_spares _ _ hne _ _ _) _ _

/-- The step lemma of the server: it answers a call without a fault with the
    number of stored hits. A hit whose answer was lost may be stored, too. -/
theorem evaluated_counts (h : self.client.Counts key rule now drawn past) (tostring : ℚ → ℚ)
    (hle : now ≤ env.server_time) (hfresh : env.uuid ∉ drawn) :
    (env.fault = .none ∧ ∃ (hit_count : Nat) (oldest retry : ℚ),
      (self.evaluated tostring env key rule.window_seconds (some (rule.count + 1))).1 =
        some ⟨hit_count, [.number oldest, .number (tostring env.server_time), .number retry]⟩ ∧
      (self.evaluated tostring env key rule.window_seconds (some (rule.count + 1))).2.Counts key rule env.server_time
        (drawn ++ [env.uuid]) (if (hit_count : ℤ) ≤ rule.count then past ++ [env.server_time] else past)) ∨
    (env.fault ≠ .none ∧ (self.evaluated tostring env key rule.window_seconds (some (rule.count + 1))).1 = none ∧
      (self.evaluated tostring env key rule.window_seconds (some (rule.count + 1))).2.Counts key rule
        env.server_time (drawn ++ [env.uuid]) past) := by
  have hexpired := h.expire_keys env.toContact hle
  obtain ⟨next, stored, oldest, retry, heval, hcounts⟩ := hexpired.eval tostring hfresh
  unfold evaluated Server.call
  simp only [Option.getD_some]
  cases hfault : env.fault with
  | none =>
    refine Or.inl ⟨rfl, stored.length, oldest, retry, ?_, ?_⟩
    · simp only [heval]
    · simp only [heval]
      exact hcounts
  | before => exact Or.inr ⟨by simp, rfl, hexpired.draw _⟩
  | after =>
    refine Or.inr ⟨by simp, rfl, ?_⟩
    simp only [heval]
    refine hcounts.of_sublist ?_
    split
    · exact List.sublist_append_left _ _
    · exact List.Sublist.refl _

theorem handle_record_hit_failure_client (self : RedisStorage V) (env : Environment)
    (request_key handler_name : String) (rule_index : Nat) (window_seconds : ℤ) (max_hits : Option ℤ) :
    (self.handle_record_hit_failure env request_key handler_name rule_index window_seconds max_hits).2.client =
      self.client := by
  unfold handle_record_hit_failure
  split <;> rfl

/-- A hit leaves the other keys alone. -/
theorem record_hit_spared (hexdigest : String → String) (tostring : ℚ → ℚ) {request_key handler_name : String}
    {rule_index : Nat} (hne : key ≠ self.build_counter_key hexdigest request_key handler_name rule_index)
    (window_seconds : ℤ) (max_hits : Option ℤ) :
    (self.record_hit hexdigest (.exact tostring) env request_key handler_name rule_index window_seconds
      max_hits).2.client key = self.client.expire_keys env.toContact key := by
  rw [← evaluated_spared tostring hne window_seconds max_hits, record_hit_eq]
  simp only
  split
  · rw [handle_record_hit_failure_client]
  · rfl

/-- A hit of the counter, answered or not. -/
theorem record_hit_counts (h : self.client.Counts key rule now drawn past) (hexdigest : String → String)
    (tostring : ℚ → ℚ) (hle : now ≤ env.server_time) (hfresh : env.uuid ∉ drawn) {request_key handler_name : String}
    {rule_index : Nat} (hkey : self.build_counter_key hexdigest request_key handler_name rule_index = key) :
    let answered := self.record_hit hexdigest (.exact tostring) env request_key handler_name rule_index
      rule.window_seconds (some (rule.count + 1))
    answered.2.client.Counts key rule env.server_time (drawn ++ [env.uuid])
      (if env.fault = .none && Reply.within (V := V) rule.count (answered.1.map .hit) then past ++ [env.server_time]
        else past) := by
  rw [record_hit_eq, hkey]
  rcases evaluated_counts h tostring hle hfresh with
    ⟨hhealthy, hit_count, oldest, retry, hreply, hcounts⟩ | ⟨hfault, hreply, hcounts⟩
  · simpa [hreply, hhealthy, parse_hit_result_numbers, Except.map, Reply.within] using hcounts
  · simpa [hreply, hfault, handle_record_hit_failure_client] using hcounts

end Hits

end RedisStorage

/-- Workers with a storage each that share one server. -/
structure Cluster (V : Type) where
  server : Server
  workers : Nat → RedisStorage V

/-- A call of a worker on its storage. -/
structure ClusterCall (V : Type) where
  worker : Nat
  env : Environment
  operation : Operation V

def ClusterCall.access {V : Type} (self : ClusterCall V) : Access V := ⟨self.env.server_time, self.operation⟩

/-- A call with the storage that it found, and what it answered or raised. -/
structure ClusterOutcome (V : Type) where
  call : ClusterCall V
  storage : RedisStorage V
  result : Except PyError (Reply V)

namespace ClusterOutcome

variable {V : Type} (self : ClusterOutcome V)

/-- The key that a hit was counted under. -/
def counter_key (hexdigest : String → String) : Option String :=
  match self.call.operation with
  | .record_hit request_key handler_name rule_index _ _ =>
    some (self.storage.build_counter_key hexdigest request_key handler_name rule_index)
  | _ => none

/-- How often the process that made the call had discarded the counters of a
    handler. -/
def generation (handler_name : String) : Nat := counter_keys.generation self.storage handler_name

/-- The call is a hit of a rule, with its window and its cap. -/
def Carries (rule : Rule) : Prop :=
  ∃ request_key handler_name rule_index,
    self.call.operation = .record_hit request_key handler_name rule_index rule.window_seconds (some (rule.count + 1))

/-- The server answered, and the hit was within a limit. -/
def served_within (count : ℤ) : Bool := self.call.env.fault = .none && Reply.within count self.result

/-- The hit is of some time in a window. -/
def in_window (window_seconds : ℤ) (last : ℚ) : Bool :=
  last - window_seconds < self.call.env.server_time && self.call.env.server_time ≤ last

end ClusterOutcome

namespace Cluster

variable {V : Type} [PyValue V] (lib : Libraries V) (tostring : ℚ → ℚ)

/-- The storage of a worker, whose client reaches the shared server. -/
def storage (self : Cluster V) (worker : Nat) : RedisStorage V :=
  { self.workers worker with client := self.server }

def perform (self : Cluster V) (call : ClusterCall V) : ClusterOutcome V × Cluster V :=
  let (result, storage) := (self.storage call.worker).operate lib (.exact tostring) call.env call.operation
  (⟨call, self.storage call.worker, result⟩,
    ⟨storage.client, Function.update self.workers call.worker storage⟩)

/-- The outcomes of calls in the order in which the workers make them. -/
def run (self : Cluster V) (calls : List (ClusterCall V)) : List (ClusterOutcome V) :=
  outputs (perform lib tostring) self calls

/-- All storages were made with one prefix and one way to name the clients. -/
def Uniform (self : Cluster V) (keyspace : String) (key_hash : Bool) : Prop :=
  ∀ worker, RedisStorage.key_prefix (self.workers worker) = keyspace ∧ (self.workers worker).key_hash = key_hash

/-- The times of the hits under a key that the server found within a limit. -/
def admitted_times (hexdigest : String → String) (key : String) (count : ℤ) (outcomes : List (ClusterOutcome V)) :
    List ℚ :=
  (outcomes.filter (fun outcome => outcome.counter_key hexdigest = some key && outcome.served_within count)).map
    (fun outcome => outcome.call.env.server_time)

section Steps

variable {lib tostring} {self : Cluster V} {call : ClusterCall V} {keyspace : String} {key_hash : Bool}
  {key : String} {rule : Rule} {now : ℚ} {drawn : List String} {past : List ℚ}

variable (lib tostring) in
theorem operate_same_settings (storage : RedisStorage V) (env : Environment) (operation : Operation V) :
    let next := (storage.operate lib (.exact tostring) env operation).2
    next.key_prefix = storage.key_prefix ∧ next.key_hash = storage.key_hash := by
  have hvalue : ∀ key, operation.key = some key →
      RedisStorage.key_prefix (storage.operate lib (.exact tostring) env operation).2 = storage.key_prefix ∧
        (storage.operate lib (.exact tostring) env operation).2.key_hash = storage.key_hash := by
    intro key hkey
    have hstep := storage.operate_value_step lib (.exact tostring) env hkey
    exact ⟨ hstep.key_prefix, hstep.key_hash⟩
  cases operation with
  | record_hit request_key handler_name rule_index window_seconds max_hits =>
    simp only [RedisStorage.operate, RedisStorage.record_hit_eq]
    split
    · unfold RedisStorage.handle_record_hit_failure
      split <;> exact ⟨rfl, rfl⟩
    · exact ⟨rfl, rfl⟩
  | cleanup_handler_counters handler_name => exact ⟨rfl, rfl⟩
  | cleanup_orphaned_counters active_rules => exact ⟨rfl, rfl⟩
  | get key => exact hvalue key rfl
  | set key value expire => exact hvalue key rfl
  | incr key expire => exact hvalue key rfl
  | delete key => exact hvalue key rfl

theorem Uniform.perform (h : self.Uniform keyspace key_hash) (call : ClusterCall V) :
    (self.perform lib tostring call).2.Uniform keyspace key_hash := by
  intro worker
  have hsettings := operate_same_settings lib tostring (self.storage call.worker) call.env
    call.operation
  simp only [Cluster.perform, Function.update_apply]
  split
  · exact ⟨hsettings.1.trans (h call.worker).1, hsettings.2.trans (h call.worker).2⟩
  · exact h worker

variable (lib tostring) in
/-- The step lemma: whichever worker makes a call, the server still covers the
    hits that it admitted under a key. -/
theorem perform_counts (huniform : self.Uniform keyspace key_hash)
    (hkey : ∀ data_key, keyspace ++ ":data:" ++ data_key ≠ key) (h : self.server.Counts key rule now drawn past)
    (hle : now ≤ call.env.server_time) (hfresh : call.env.uuid ∉ drawn)
    (hrule : (self.perform lib tostring call).1.counter_key lib.hexdigest = some key →
      (self.perform lib tostring call).1.Carries rule) :
    (self.perform lib tostring call).2.server.Counts key rule call.env.server_time (drawn ++ [call.env.uuid])
      (if (self.perform lib tostring call).1.counter_key lib.hexdigest = some key &&
          (self.perform lib tostring call).1.served_within rule.count
        then past ++ [call.env.server_time] else past) := by
  have hwaited := (h.wait hle).draw call.env.uuid
  have hexpired := (h.expire_keys call.env.toContact hle).draw call.env.uuid
  obtain ⟨worker, env, operation⟩ := call
  have hvalue : ∀ named, operation.key = some named →
      ((self.storage worker).operate lib (.exact tostring) env operation).2.client.Counts key rule env.server_time
        (drawn ++ [env.uuid]) past := by
    intro named hnamed
    have hstep := (self.storage worker).operate_value_step lib (.exact tostring) env hnamed
    have hne : key ≠ (self.storage worker).build_data_key named := by
      intro heq
      refine hkey named ?_
      rw [heq, RedisStorage.build_data_key, ← (huniform worker).1]
      rfl
    rcases hstep.spared key hne with hsame | hgone
    · exact hwaited.congr hsame
    · exact hexpired.congr hgone
  cases operation with
  | record_hit request_key handler_name rule_index window_seconds max_hits =>
    by_cases hown : (self.storage worker).build_counter_key lib.hexdigest request_key handler_name rule_index = key
    · obtain ⟨_, _, _, hcarries⟩ := hrule (congrArg some hown)
      cases hcarries
      have hcounts := RedisStorage.record_hit_counts h lib.hexdigest tostring hle hfresh
        hown
      have hserved : ((self.perform lib tostring ⟨worker, env, .record_hit request_key handler_name rule_index
            rule.window_seconds (some (rule.count + 1))⟩).1.counter_key lib.hexdigest = some key &&
          (self.perform lib tostring ⟨worker, env, .record_hit request_key handler_name rule_index
            rule.window_seconds (some (rule.count + 1))⟩).1.served_within rule.count) =
          (self.perform lib tostring ⟨worker, env, .record_hit request_key handler_name rule_index
            rule.window_seconds (some (rule.count + 1))⟩).1.served_within rule.count := by
        simp [Cluster.perform, ClusterOutcome.counter_key, hown]
      rw [hserved]
      exact hcounts
    · have hother : ¬ some
          ((self.storage worker).build_counter_key lib.hexdigest request_key handler_name rule_index) =
          some key := fun heq => hown (Option.some.inj heq)
      simp only [Cluster.perform, ClusterOutcome.counter_key, hother, decide_false, Bool.false_and]
      refine hexpired.congr (RedisStorage.record_hit_spared lib.hexdigest tostring ?_ window_seconds max_hits)
      exact fun heq => hown heq.symm
  | cleanup_handler_counters handler_name => exact hwaited
  | cleanup_orphaned_counters active_rules => exact hwaited
  | get named => exact hvalue named rfl
  | set named value expire => exact hvalue named rfl
  | incr named expire => exact hvalue named rfl
  | delete named => exact hvalue named rfl

end Steps

section Runs

variable {lib tostring} {self : Cluster V} {calls : List (ClusterCall V)} {keyspace : String} {key_hash : Bool}
  {key : String} {rule : Rule}

omit [PyValue V] in
theorem admitted_times_concat (hexdigest : String → String) (key : String) (count : ℤ)
    (outcomes : List (ClusterOutcome V)) (outcome : ClusterOutcome V) :
    admitted_times hexdigest key count (outcomes ++ [outcome]) =
      if outcome.counter_key hexdigest = some key && outcome.served_within count
        then admitted_times hexdigest key count outcomes ++ [outcome.call.env.server_time]
        else admitted_times hexdigest key count outcomes := by
  unfold admitted_times
  rw [List.filter_append, List.map_append, List.filter_singleton]
  cases decide (outcome.counter_key hexdigest = some key) && outcome.served_within count with
  | true => rfl
  | false => simp

theorem Uniform.settle (h : self.Uniform keyspace key_hash) (calls : List (ClusterCall V)) :
    (collections.settle (Cluster.perform lib tostring) self calls).Uniform keyspace key_hash := by
  induction calls generalizing self with
  | nil => exact h
  | cons call rest ih => exact ih (h.perform call)

variable (lib tostring) in
/-- The run lemma: however the workers' calls interleave, and whichever of them
    fail, the server covers the hits that it admitted under a key. -/
theorem settle_counts (huniform : self.Uniform keyspace key_hash)
    (hkey : ∀ data_key, keyspace ++ ":data:" ++ data_key ≠ key) (habsent : self.server key = none)
    (hmono : calls.Pairwise (fun first second => first.env.server_time ≤ second.env.server_time))
    (huuids : (calls.map (fun call => call.env.uuid)).Nodup)
    (hrule : ∀ outcome ∈ self.run lib tostring calls, outcome.counter_key lib.hexdigest = some key →
      outcome.Carries rule)
    {now : ℚ} (hnow : ∀ call ∈ calls, call.env.server_time ≤ now) :
    (collections.settle (perform lib tostring) self calls).server.Counts key rule now
      (calls.map (fun call => call.env.uuid))
      (admitted_times lib.hexdigest key rule.count (self.run lib tostring calls)) := by
  induction calls using List.reverseRecOn generalizing now with
  | nil => exact Server.Counts.of_absent habsent rule now
  | append_singleton before call ih =>
    rw [run, outputs_concat] at hrule ⊢
    obtain ⟨hbefore, -, hlast⟩ := List.pairwise_append.mp hmono
    rw [List.map_append, List.nodup_append] at huuids
    have hcounts := ih hbefore huuids.1 (fun outcome houtcome => hrule outcome (List.mem_append_left _ houtcome))
      (fun other hother => hlast other hother call (by simp))
    have hstep := perform_counts lib tostring (huniform.settle before) hkey hcounts (le_refl _)
      (fun hmem => huuids.2.2 _ hmem _ (by simp) rfl) (hrule _ (by simp))
    rw [settle_concat, List.map_append]
    refine (hstep.wait (hnow call (by simp))).of_sublist ?_
    rw [admitted_times_concat]
    exact List.Sublist.refl _

/-- The key of a counter under some generation of its handler. -/
def key_at (hexdigest : String → String) (keyspace : String) (key_hash : Bool) (counter_key : CounterKey)
    (generation : Nat) : String :=
  keyspace ++ ":counter:" ++
    join counter_key.2.1
      (redis_tail (key_tail hexdigest key_hash) (generation, counter_key.2.2, counter_key.1))

theorem data_key_ne_key_at (hexdigest : String → String) (counter_key : CounterKey) (generation : Nat)
    (data_key : String) :
    keyspace ++ ":data:" ++ data_key ≠ key_at hexdigest keyspace key_hash counter_key generation := by
  intro heq
  unfold key_at at heq
  rw [String.append_assoc, String.append_assoc] at heq
  have hrest := congrArg String.toList (append_left_injective heq)
  rw [String.toList_append, String.toList_append] at hrest
  simp at hrest

/-- A hit of the counter is counted under the key of its generation. -/
theorem counter_key_of_hits (huniform : self.Uniform keyspace key_hash) {counter_key : CounterKey}
    {outcome : ClusterOutcome V} (houtcome : outcome ∈ self.run lib tostring calls)
    (hhits : outcome.call.access.hits counter_key = true) :
    outcome.counter_key lib.hexdigest =
      some (key_at lib.hexdigest keyspace key_hash counter_key (outcome.generation counter_key.2.1)) := by
  induction calls generalizing self with
  | nil => simp [run, outputs] at houtcome
  | cons call rest ih =>
    rcases List.mem_cons.mp houtcome with rfl | hrest
    · obtain ⟨window_seconds, max_hits, hoperation⟩ := Access.hits_iff.mp hhits
      have hsettings := huniform call.worker
      have hcall : call.operation =
          .record_hit counter_key.1 counter_key.2.1 counter_key.2.2 window_seconds max_hits :=
        hoperation
      simp only [Cluster.perform, ClusterOutcome.counter_key, ClusterOutcome.generation, hcall, Option.some.injEq]
      rw [build_counter_key_eq, key_at, ← hsettings.1, ← hsettings.2]
      rfl
    · exact ih (huniform.perform call) hrest

/-- Under each generation of a handler the server admits at most the limit. -/
theorem served_within_le (huniform : self.Uniform keyspace key_hash)
    (habsent : ∀ counter, self.server (keyspace ++ ":counter:" ++ counter) = none)
    (hmono : calls.Pairwise (fun first second => first.env.server_time ≤ second.env.server_time))
    (huuids : (calls.map (fun call => call.env.uuid)).Nodup) {counter_key : CounterKey}
    (hrule : ∀ hit ∈ self.run lib tostring calls, hit.call.access.hits counter_key = true →
      ∀ outcome ∈ self.run lib tostring calls, outcome.counter_key lib.hexdigest = hit.counter_key lib.hexdigest →
        outcome.Carries rule) (last : ℚ) (generation : Nat) :
    (self.run lib tostring calls).countP (fun outcome => (outcome.call.access.hits counter_key &&
      (outcome.in_window rule.window_seconds last && outcome.served_within rule.count)) &&
        outcome.generation counter_key.2.1 = generation) ≤ rule.count.toNat := by
  by_cases hcounted : ∃ hit ∈ self.run lib tostring calls, hit.call.access.hits counter_key = true ∧
      hit.generation counter_key.2.1 = generation
  · obtain ⟨hit, hmem, hhits, hgeneration⟩ := hcounted
    have hhit := counter_key_of_hits huniform hmem hhits
    rw [hgeneration] at hhit
    obtain ⟨now, hnow⟩ : ∃ now, ∀ call ∈ calls, call.env.server_time ≤ now := by
      refine ⟨(calls.map (fun call => call.env.server_time)).foldr max 0, fun call hcall => ?_⟩
      exact List.le_max_of_le' _ (List.mem_map_of_mem hcall) (le_refl _)
    have hcounts := settle_counts lib tostring huniform
      (data_key_ne_key_at lib.hexdigest counter_key generation) (habsent _) hmono huuids
      (fun outcome houtcome hkey => hrule hit hmem hhits outcome houtcome (hkey.trans hhit.symm)) hnow
    obtain ⟨counter, hcovers, -⟩ := hcounts.stored
    refine le_trans ?_ (hcovers.bounded last)
    rw [within, admitted_times, List.filter_map, List.length_map, List.filter_filter, ← List.countP_eq_length_filter]
    apply List.countP_mono_left
    intro outcome houtcome hcount
    simp only [Bool.and_eq_true, decide_eq_true_eq] at hcount
    obtain ⟨⟨houthits, hwindow, hserved⟩, hlabel⟩ := hcount
    have hkey := counter_key_of_hits huniform houtcome houthits
    rw [hlabel] at hkey
    simp only [ClusterOutcome.in_window, Bool.and_eq_true, decide_eq_true_eq] at hwindow
    simp [hkey, hserved, hwindow]
  · rw [List.countP_eq_zero.mpr]
    · exact Nat.zero_le _
    · intro outcome houtcome hcount
      simp only [Bool.and_eq_true, decide_eq_true_eq] at hcount
      exact hcounted ⟨outcome, houtcome, hcount.1.1, hcount.2⟩

/-- Workers that share a server also share the limit of a counter, in every
    window and however their calls interleave, as long as they count under one
    generation of its handler. Each generation has the limit for itself. -/
theorem shared_counter_limit (huniform : self.Uniform keyspace key_hash)
    (habsent : ∀ counter, self.server (keyspace ++ ":counter:" ++ counter) = none)
    (hmono : calls.Pairwise (fun first second => first.env.server_time ≤ second.env.server_time))
    (huuids : (calls.map (fun call => call.env.uuid)).Nodup) {counter_key : CounterKey}
    (hrule : ∀ hit ∈ self.run lib tostring calls, hit.call.access.hits counter_key = true →
      ∀ outcome ∈ self.run lib tostring calls, outcome.counter_key lib.hexdigest = hit.counter_key lib.hexdigest →
        outcome.Carries rule) (last : ℚ) :
    let admitted := (self.run lib tostring calls).filter (fun outcome => outcome.call.access.hits counter_key &&
      (outcome.in_window rule.window_seconds last && outcome.served_within rule.count))
    admitted.length ≤
      (admitted.map (fun outcome => outcome.generation counter_key.2.1)).dedup.length * rule.count.toNat := by
  intro admitted
  rw [← List.countP_eq_length_filter]
  exact countP_le_of_labels _ _ (served_within_le huniform habsent hmono huuids hrule last)

theorem run_map_call (self : Cluster V) (calls : List (ClusterCall V)) :
    (self.run lib tostring calls).map ClusterOutcome.call = calls := by
  induction calls generalizing self with
  | nil => rfl
  | cons call rest ih => exact congrArg (call :: ·) (ih _)

theorem call_mem {outcome : ClusterOutcome V} (houtcome : outcome ∈ self.run lib tostring calls) :
    outcome.call ∈ calls := by
  have hcall := List.mem_map_of_mem (f := ClusterOutcome.call) houtcome
  rwa [run_map_call] at hcall

end Runs

/-- Two workers with one server. The second one discards the counters of a handler
    between its hits. -/
def two_workers : Cluster PlainValue := ⟨fun _ => none, fun _ => .default⟩

def interleaved_hits : List (ClusterCall PlainValue) :=
  let hit := Operation.record_hit "10.0.0.1" "item" 0 Rule.one_per_minute.window_seconds
    (some (Rule.one_per_minute.count + 1))
  [⟨0, .healthy 0 "a", hit⟩, ⟨1, .healthy 1 "b", hit⟩, ⟨1, .healthy 2 "c", .cleanup_handler_counters "item"⟩,
    ⟨1, .healthy 3 "d", hit⟩, ⟨0, .healthy 4 "e", hit⟩]

/-- The hits of these workers that are admitted in the first minute. -/
def first_minute : List (ClusterOutcome PlainValue) :=
  (two_workers.run .plain id interleaved_hits).filter (fun outcome =>
    outcome.call.access.hits ("10.0.0.1", "item", 0) &&
      (outcome.in_window 60 59 && outcome.served_within 1))

theorem shared_counter_limit_two_workers :
    first_minute.map (fun outcome => outcome.call.env.uuid) = ["a", "d"] ∧
      first_minute.length ≤ (first_minute.map (fun outcome => outcome.generation "item")).dedup.length * 1 := by
  refine ⟨by decide +kernel, ?_⟩
  have huniform : two_workers.Uniform "rbl" false := fun _ => ⟨rfl, rfl⟩
  refine @shared_counter_limit PlainValue _ .plain id two_workers interleaved_hits "rbl" false .one_per_minute
    huniform (fun _ => rfl) (by decide +kernel) (by decide +kernel) ("10.0.0.1", "item", 0) ?_ 59
  intro hit hmem hhits outcome houtcome hkey
  rw [counter_key_of_hits huniform hmem hhits] at hkey
  have hcall := call_mem houtcome
  simp only [interleaved_hits, List.mem_cons, List.not_mem_nil, or_false] at hcall
  unfold ClusterOutcome.Carries
  rcases hcall with hcall | hcall | hcall | hcall | hcall
  · exact ⟨_, _, _, congrArg ClusterCall.operation hcall⟩
  · exact ⟨_, _, _, congrArg ClusterCall.operation hcall⟩
  · simp [ClusterOutcome.counter_key, hcall] at hkey
  · exact ⟨_, _, _, congrArg ClusterCall.operation hcall⟩
  · exact ⟨_, _, _, congrArg ClusterCall.operation hcall⟩

end Cluster

end response_bandwidth_limiter.redis

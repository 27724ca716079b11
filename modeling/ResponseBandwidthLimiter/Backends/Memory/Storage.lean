import ResponseBandwidthLimiter.Collections.OrderedDict
import ResponseBandwidthLimiter.Models
import ResponseBandwidthLimiter.SlidingWindow.Basic
import Mathlib.Data.PNat.Notation
import Mathlib.Data.PNat.Basic
import Mathlib.Order.WithBot

open collections
open response_bandwidth_limiter.base response_bandwidth_limiter.models

namespace response_bandwidth_limiter.memory

/-- Request key, handler name and rule index. -/
abbrev CounterKey := String × String × Nat

/-- The maps behind `InMemoryStorage`. Times are exact numbers of seconds, and
    every operation reads the clock once. -/
structure InMemoryStorage (V : Type) where
  values : OrderedDict String V
  expires : OrderedDict String ℚ
  last_access : OrderedDict String ℚ
  request_counters : OrderedDict CounterKey (List ℚ)
  max_keys : ℕ+
  max_counters : ℕ+

variable {V : Type}

namespace InMemoryStorage

/-- An empty storage with the given capacities. -/
def fresh (max_keys max_counters : ℕ+) : InMemoryStorage V where
  values := .empty
  expires := .empty
  last_access := .empty
  request_counters := .empty
  max_keys := max_keys
  max_counters := max_counters

def init (max_keys max_counters : ℤ) : Except PyError (InMemoryStorage V) := do
  validate_limit "max_keys" max_keys
  validate_limit "max_counters" max_counters
  return fresh max_keys.toNat.toPNat' max_counters.toNat.toPNat'

def touch_key (self : InMemoryStorage V) (key : String) (now : ℚ) : InMemoryStorage V :=
  { self with last_access := self.last_access.set key now }

def delete_key (self : InMemoryStorage V) (key : String) : InMemoryStorage V :=
  { self with
    values := self.values.erase key
    expires := self.expires.erase key
    last_access := self.last_access.erase key }

def put_value (self : InMemoryStorage V) (key : String) (value : V) : InMemoryStorage V :=
  { self with values := self.values.set key value }

def set_expiry (self : InMemoryStorage V) (key : String) (now : ℚ) (expire : Option ℤ) :
    InMemoryStorage V :=
  match expire with
  | none => { self with expires := self.expires.erase key }
  | some seconds => { self with expires := self.expires.set key (now + seconds) }

def delete_if_expired (self : InMemoryStorage V) (key : String) (now : ℚ) :
    Bool × InMemoryStorage V :=
  match self.expires.get? key with
  | none => (false, self)
  | some expires_at => if expires_at > now then (false, self) else (true, self.delete_key key)

/-- `[candidate for candidate in candidates if self._delete_if_expired(candidate, now)]`. -/
def delete_expired (self : InMemoryStorage V) (now : ℚ) : List String → List String × InMemoryStorage V
  | [] => ([], self)
  | candidate :: rest =>
    let (deleted, next) := self.delete_if_expired candidate now
    let (others, final) := next.delete_expired now rest
    (if deleted then candidate :: others else others, final)

/-- The keys outside the IP controls, least recently accessed first. Ties keep
    the iteration order, as a stable sort does. -/
def oldest_keys (self : InMemoryStorage V) : List String :=
  ((self.last_access.items.filter (fun entry => !starts_with entry.1 "ip:")).mergeSort
    (fun first second => first.2 ≤ second.2)).map Prod.fst

def evict_keys_if_needed (self : InMemoryStorage V) (key : String) (now : ℚ) :
    Except PyError Unit × InMemoryStorage V :=
  if key ∈ self.values.keys ∨ self.values.size < self.max_keys then (.ok (), self)
  else
    let (expired_keys, swept) := self.delete_expired now self.values.keys
    if expired_keys ≠ [] then (.ok (), swept)
    else
      let trim_by := max 1 ((swept.max_keys : Nat) / 10)
      let target_size := (swept.max_keys : Nat) - trim_by
      let overflow := swept.values.size - target_size
      if swept.oldest_keys = [] then
        (.error (.storage_unavailable_error "In-memory storage is full of IP control entries."), swept)
      else (.ok (), (swept.oldest_keys.take overflow).foldl delete_key swept)

section Values

variable [PyValue V]

def get (self : InMemoryStorage V) (now : ℚ) (key : String) : V × InMemoryStorage V :=
  match self.delete_if_expired key now with
  | (true, self) => (PyValue.none, self)
  | (false, self) =>
    match self.values.get? key with
    | none => (PyValue.none, self)
    | some value => (value, self.touch_key key now)

def set (self : InMemoryStorage V) (now : ℚ) (key : String) (value : V) (expire : Option ℤ) :
    Except PyError Unit × InMemoryStorage V :=
  match validate_expire expire with
  | .error e => (.error e, self)
  | .ok () =>
    match self.evict_keys_if_needed key now with
    | (.error e, self) => (.error e, self)
    | (.ok (), self) => (.ok (), ((self.put_value key value).touch_key key now).set_expiry key now expire)

def incr (self : InMemoryStorage V) (now : ℚ) (key : String) (expire : Option ℤ) :
    Except PyError ℤ × InMemoryStorage V :=
  match validate_expire expire with
  | .error e => (.error e, self)
  | .ok () =>
    match (self.delete_if_expired key now).2.evict_keys_if_needed key now with
    | (.error e, self) => (.error e, self)
    | (.ok (), self) =>
      match (self.values.get? key).elim (.ok 0) PyValue.as_int with
      | .error e => (.error e, self)
      | .ok previous =>
        let current := previous + 1
        let self := (self.put_value key (PyValue.int current)).touch_key key now
        (.ok current, if expire.isSome then self.set_expiry key now expire else self)

end Values

def delete (self : InMemoryStorage V) (key : String) : InMemoryStorage V :=
  self.delete_key key

def cleanup_counter (history : List ℚ) (now : ℚ) (window_seconds : ℤ) : List ℚ :=
  let threshold := now - window_seconds
  history.dropWhile (fun hit => hit ≤ threshold)

/-- The eviction rank of a history: its last hit, below everything when empty. -/
def last_hit (history : List ℚ) : WithBot ℚ :=
  match history.getLast? with
  | none => ⊥
  | some time => (time : WithBot ℚ)

def evict_counters_if_needed (self : InMemoryStorage V) : InMemoryStorage V :=
  if self.request_counters.size < self.max_counters then self
  else
    let empty_keys := (self.request_counters.items.filter (fun entry => entry.2 = [])).map Prod.fst
    let swept := { self with request_counters := self.request_counters.eraseAll empty_keys }
    if swept.request_counters.size < swept.max_counters then swept
    else
      let trim_by := max 1 ((swept.max_counters : Nat) / 10)
      let target_size := (swept.max_counters : Nat) - trim_by
      let overflow := swept.request_counters.size - target_size
      let oldest_keys := (swept.request_counters.items.mergeSort
        (fun first second => last_hit first.2 ≤ last_hit second.2)).map Prod.fst
      { swept with request_counters := swept.request_counters.eraseAll (oldest_keys.take overflow) }

/-- The history `record_hit` works on: the stored one, or an empty one for
    which room was made. -/
def counter_history (self : InMemoryStorage V) (counter_key : CounterKey) :
    List ℚ × InMemoryStorage V :=
  match self.request_counters.get? counter_key with
  | some history => (history, self)
  | none => ([], self.evict_counters_if_needed)

/-- `max_hits is None or len(history) < max_hits`. -/
def below_cap (max_hits : Option ℤ) (history : List ℚ) : Bool :=
  match max_hits with
  | none => true
  | some limit => (history.length : ℤ) < limit

/-- The hit whose expiry makes room for the next one. Its index is inside the
    history whenever the guard holds. -/
def retry_after_timestamp (max_hits : Option ℤ) (history : List ℚ) : Option ℚ :=
  match max_hits with
  | none => none
  | some limit =>
    if h : 1 < limit ∧ limit ≤ history.length then
      some (history.get ⟨((history.length : ℤ) - limit + 1).toNat, by omega⟩)
    else none

def validate_max_hits (max_hits : Option ℤ) : Except PyError Unit :=
  match max_hits with
  | none => .ok ()
  | some limit => validate_limit "max_hits" limit

def store_history (self : InMemoryStorage V) (counter_key : CounterKey) (history : List ℚ) :
    InMemoryStorage V :=
  { self with request_counters := self.request_counters.set counter_key history }

/-- What a hit reports about the history it left behind. -/
def hit_result (now : ℚ) (max_hits : Option ℤ) (history : List ℚ) : SlidingWindowResult where
  hit_count := history.length
  oldest_timestamp := history.head?
  current_timestamp := now
  retry_after_timestamp := retry_after_timestamp max_hits history

def record_hit (self : InMemoryStorage V) (now : ℚ) (request_key handler_name : String)
    (rule_index : Nat) (window_seconds : ℤ) (max_hits : Option ℤ) :
    Except PyError SlidingWindowResult × InMemoryStorage V :=
  match validate_max_hits max_hits with
  | .error e => (.error e, self)
  | .ok () =>
    let counter_key := (request_key, handler_name, rule_index)
    let (history, self) := self.counter_history counter_key
    let history := cleanup_counter history now window_seconds
    let history := if below_cap max_hits history then history ++ [now] else history
    -- The deque lives in the dictionary, so its final contents are what is stored.
    (.ok (hit_result now max_hits history), self.store_history counter_key history)

def cleanup_handler_counters (self : InMemoryStorage V) (handler_name : String) : InMemoryStorage V :=
  let stale_keys := self.request_counters.keys.filter (fun key => key.2.1 = handler_name)
  let self := { self with request_counters := self.request_counters.eraseAll stale_keys }
  let approx_keys := self.values.keys.filter
    (fun key => starts_with key <| build_approx_handler_prefix handler_name)
  approx_keys.foldl delete_key self

/-- The window of the rule a counter belongs to, if its rule is still active. -/
def active_window (active_rules : OrderedDict String (List Rule)) (counter_key : CounterKey) : Option ℤ :=
  match active_rules.get? counter_key.2.1 with
  | none => none
  | some rules => (rules[counter_key.2.2]?).map Rule.window_seconds

def cleanup_orphaned_counters (self : InMemoryStorage V) (now : ℚ)
    (active_rules : OrderedDict String (List Rule)) : InMemoryStorage V :=
  let pruned := self.request_counters.mapValues (fun counter_key history =>
    match active_window active_rules counter_key with
    | none => history
    | some window_seconds => cleanup_counter history now window_seconds)
  let stale_keys := (pruned.items.filter (fun entry =>
    (active_window active_rules entry.1).isNone || entry.2 = [])).map Prod.fst
  { self with request_counters := pruned.eraseAll stale_keys }

end InMemoryStorage

end response_bandwidth_limiter.memory

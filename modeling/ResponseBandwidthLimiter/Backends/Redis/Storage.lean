import ResponseBandwidthLimiter.Backends.Redis.Server
import ResponseBandwidthLimiter.Backends.Memory.Storage

open collections
open response_bandwidth_limiter.base response_bandwidth_limiter.models response_bandwidth_limiter.memory

namespace response_bandwidth_limiter.redis

/-- `counter_failure_mode`: `"open"`, `"closed"` or `"local-memory-fallback"`. -/
inductive FailureMode where
  | fail_open
  | fail_closed
  | local_memory_fallback
  deriving DecidableEq, Repr

/-- `control_failure_mode`, which cannot be open. -/
inductive ControlFailureMode where
  | fail_closed
  | local_memory_fallback
  deriving DecidableEq, Repr

/-- What the code uses of `hashlib` and `json`. `bytes_text` is the wire text of
    a value that is already bytes; `json_dumps` raises on values that are not
    serialisable, and a dumped text reads back as the same text. -/
structure Libraries (V : Type) [PyValue V] where
  hexdigest : String → String
  bytes_text : V → Option String
  json_dumps : V → Option String
  json_loads : String → Except PyError V
  bytes_text_str : ∀ text, bytes_text (PyValue.str text) = none
  json_loads_dumps : ∀ text dumped, json_dumps (PyValue.str text) = some dumped →
    json_loads dumped = .ok (PyValue.str text)

/-- The libraries on texts without characters to escape. -/
def Libraries.plain : Libraries PlainValue where
  hexdigest := id
  bytes_text _ := none
  json_dumps
    | .str text => some ("\"" ++ text ++ "\"")
    | _ => none
  json_loads dumped := .ok (.str (String.ofList (dumped.toList.drop 1).dropLast))
  bytes_text_str _ := rfl
  json_loads_dumps text dumped hdumped := by
    cases hdumped
    simp [PyValue.str, String.toList_append]

structure RedisStorage (V : Type) where
  client : Server
  key_prefix : String
  key_hash : Bool
  counter_failure_mode : FailureMode
  control_failure_mode : ControlFailureMode
  counter_fallback_storage : InMemoryStorage V
  /-- `none` when it is the counter fallback itself. -/
  control_fallback_storage : Option (InMemoryStorage V)
  handler_generations : OrderedDict String Nat

/-- What one call meets: the server, the two local clocks, and the identifier
    drawn for a hit. -/
structure Environment extends Contact where
  monotonic : ℚ
  time : ℚ
  uuid : String

/-- A call that the server answers, with all clocks at one reading. -/
def Environment.healthy (now : ℚ) (uuid : String) : Environment where
  server_time := now
  spared _ := false
  fault := .none
  monotonic := now
  time := now
  uuid := uuid

def JSON_PREFIX : String := "__rbl_json__:"

namespace RedisStorage

variable {V : Type}

/-- The defaults of the constructor, around an empty server. -/
def default : RedisStorage V where
  client _ := none
  key_prefix := "rbl"
  key_hash := false
  counter_failure_mode := .fail_open
  control_failure_mode := .fail_closed
  counter_fallback_storage := .fresh 10000 10000
  control_fallback_storage := none
  handler_generations := .empty

def build_data_key (self : RedisStorage V) (key : String) : String :=
  self.key_prefix ++ ":data:" ++ key

def build_counter_key (hexdigest : String → String) (self : RedisStorage V) (request_key handler_name : String)
    (rule_index : Nat) : String :=
  let key_tail := if self.key_hash then hexdigest request_key else request_key
  let generation := (self.handler_generations.get? handler_name).getD 0
  if generation > 0 then
    self.key_prefix ++ ":counter:" ++ handler_name ++ ":v" ++ toString generation ++ ":" ++
      toString rule_index ++ ":" ++ key_tail
  else
    self.key_prefix ++ ":counter:" ++ handler_name ++ ":" ++ toString rule_index ++ ":" ++ key_tail

def is_control_key (key : String) : Bool := starts_with key "ip:"

/-- A call of the client. -/
def send {R : Type} (self : RedisStorage V) (env : Environment) (command : Server.Command R) :
    Option R × RedisStorage V :=
  let (reply, client) := self.client.call env.toContact command
  (reply, { self with client })

/-- A call of the counter fallback. -/
def on_counter_fallback {R : Type} (self : RedisStorage V)
    (operation : InMemoryStorage V → R × InMemoryStorage V) : R × RedisStorage V :=
  let (result, counter_fallback_storage) := operation self.counter_fallback_storage
  (result, { self with counter_fallback_storage })

/-- A call of the control fallback, which may be the counter fallback. -/
def on_control_fallback {R : Type} (self : RedisStorage V)
    (operation : InMemoryStorage V → R × InMemoryStorage V) : R × RedisStorage V :=
  match self.control_fallback_storage with
  | none => self.on_counter_fallback operation
  | some storage =>
    let (result, control_fallback_storage) := operation storage
    (result, { self with control_fallback_storage := some control_fallback_storage })

def control_unavailable : PyError := .storage_unavailable_error "Redis control storage is unavailable."

def counter_unavailable : PyError := .storage_unavailable_error "Redis counter storage is unavailable."

/-- The shape the failure handlers share: by the kind of key and its mode they
    answer `on_open`, ask a fallback, or raise. -/
def handle_failure {R : Type} (self : RedisStorage V) (key : String) (on_open : R)
    (fallback : InMemoryStorage V → Except PyError R × InMemoryStorage V) : Except PyError R × RedisStorage V :=
  if is_control_key key then
    match self.control_failure_mode with
    | .local_memory_fallback => self.on_control_fallback fallback
    | .fail_closed => (.error control_unavailable, self)
  else
    match self.counter_failure_mode with
    | .fail_open => (.ok on_open, self)
    | .local_memory_fallback => self.on_counter_fallback fallback
    | .fail_closed => (.error counter_unavailable, self)

section Values

variable [PyValue V] (lib : Libraries V)

/-- Raises, as `none`, on a value that cannot be dumped. -/
def serialize_value (value : V) : Option String :=
  match lib.bytes_text value with
  | some text => some text
  | none => (lib.json_dumps value).map (fun dumped => JSON_PREFIX ++ dumped)

def deserialize_value (value : Option String) : Except PyError V :=
  match value with
  | none => .ok PyValue.none
  | some text =>
    if starts_with text JSON_PREFIX then
      lib.json_loads (String.ofList (text.toList.drop JSON_PREFIX.toList.length))
    else .ok (PyValue.str text)

def handle_get_failure (self : RedisStorage V) (env : Environment) (key : String) :
    Except PyError V × RedisStorage V :=
  self.handle_failure key PyValue.none (fun storage =>
    (.ok (storage.get env.monotonic key).1, (storage.get env.monotonic key).2))

def handle_set_failure (self : RedisStorage V) (env : Environment) (key : String) (value : V)
    (expire : Option ℤ) : Except PyError Unit × RedisStorage V :=
  self.handle_failure key () (fun storage => storage.set env.monotonic key value expire)

def handle_incr_failure (self : RedisStorage V) (env : Environment) (key : String) (expire : Option ℤ) :
    Except PyError ℤ × RedisStorage V :=
  self.handle_failure key 0 (fun storage => storage.incr env.monotonic key expire)

def handle_delete_failure (self : RedisStorage V) (key : String) : Except PyError Unit × RedisStorage V :=
  self.handle_failure key () (fun storage => (.ok (), storage.delete key))

def get (self : RedisStorage V) (env : Environment) (key : String) : Except PyError V × RedisStorage V :=
  match self.send env (Server.get (self.build_data_key key)) with
  | (none, self) => self.handle_get_failure env key
  | (some value, self) => (deserialize_value lib value, self)

def set (self : RedisStorage V) (env : Environment) (key : String) (value : V) (expire : Option ℤ) :
    Except PyError Unit × RedisStorage V :=
  match serialize_value lib value with
  | none => self.handle_set_failure env key value expire
  | some text =>
    match self.send env (Server.set env.server_time (self.build_data_key key) text expire) with
    | (none, self) => self.handle_set_failure env key value expire
    | (some (), self) => (.ok (), self)

def incr (self : RedisStorage V) (env : Environment) (key : String) (expire : Option ℤ) :
    Except PyError ℤ × RedisStorage V :=
  let command :=
    match expire with
    | none => Server.incr (self.build_data_key key)
    | some seconds => Server.incr_expire env.server_time (self.build_data_key key) seconds
  match self.send env command with
  | (none, self) => self.handle_incr_failure env key expire
  | (some current, self) => (.ok current, self)

def delete (self : RedisStorage V) (env : Environment) (key : String) : Except PyError Unit × RedisStorage V :=
  match self.send env (Server.delete (self.build_data_key key)) with
  | (none, self) => self.handle_delete_failure key
  | (some (), self) => (.ok (), self)

end Values

def handle_record_hit_failure (self : RedisStorage V) (env : Environment) (request_key handler_name : String)
    (rule_index : Nat) (window_seconds : ℤ) (max_hits : Option ℤ) :
    Except PyError SlidingWindowResult × RedisStorage V :=
  match self.counter_failure_mode with
  | .fail_open =>
    (.ok { hit_count := 0, oldest_timestamp := none, current_timestamp := env.time,
           retry_after_timestamp := none }, self)
  | .local_memory_fallback =>
    self.on_counter_fallback (fun storage =>
      storage.record_hit env.monotonic request_key handler_name rule_index window_seconds max_hits)
  | .fail_closed => (.error counter_unavailable, self)

/-- The `EVAL` call of `record_hit`. -/
def eval_hit (hexdigest : String → String) (numerals : Numerals) (self : RedisStorage V) (env : Environment)
    (request_key handler_name : String) (rule_index : Nat) (window_seconds : ℤ) (max_hits : Option ℤ) :
    Option ScriptReply × RedisStorage V :=
  let counter_key := self.build_counter_key hexdigest request_key handler_name rule_index
  let max_hit_entries := max_hits.getD 0
  self.send env (Server.eval numerals env.server_time counter_key window_seconds env.uuid max_hit_entries)

def record_hit (hexdigest : String → String) (numerals : Numerals) (self : RedisStorage V) (env : Environment)
    (request_key handler_name : String) (rule_index : Nat) (window_seconds : ℤ) (max_hits : Option ℤ) :
    Except PyError SlidingWindowResult × RedisStorage V :=
  match self.eval_hit hexdigest numerals env request_key handler_name rule_index window_seconds max_hits with
  | (none, self) =>
    self.handle_record_hit_failure env request_key handler_name rule_index window_seconds max_hits
  | (some reply, self) => (parse_hit_result reply, self)

/-- The shared counters stay; this storage moves on to new ones. -/
def cleanup_handler_counters (self : RedisStorage V) (handler_name : String) : RedisStorage V :=
  let generation := (self.handler_generations.get? handler_name).getD 0 + 1
  { self with
    handler_generations := self.handler_generations.set handler_name generation
    counter_fallback_storage := self.counter_fallback_storage.cleanup_handler_counters handler_name }

def cleanup_orphaned_counters (self : RedisStorage V) (env : Environment)
    (active_rules : OrderedDict String (List Rule)) : RedisStorage V :=
  { self with
    counter_fallback_storage :=
      self.counter_fallback_storage.cleanup_orphaned_counters env.monotonic active_rules }

end RedisStorage

end response_bandwidth_limiter.redis

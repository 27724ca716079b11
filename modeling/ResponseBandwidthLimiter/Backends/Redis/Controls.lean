import ResponseBandwidthLimiter.Backends.Redis.Storage
import ResponseBandwidthLimiter.IpManager

open collections
open response_bandwidth_limiter.base response_bandwidth_limiter.ip_manager

namespace response_bandwidth_limiter.redis

namespace Server

/-- An entry without expiry is never removed by the server. -/
theorem expire_keys_persistent {self : Server} {key : String} {value : RedisValue}
    (hentry : self key = some ⟨value, none⟩) (contact : Contact) :
    self.expire_keys contact key = some ⟨value, none⟩ := by
  cases value <;> simp [expire_keys, hentry, Timed.alive, Timed.lasts]

/-- A command leaves a key alone. -/
def Command.Spares {R : Type} (command : Command R) (key : String) : Prop :=
  ∀ server, (command server).2 key = server key

theorem get_spares (read key : String) : (get read).Spares key := by
  intro server
  unfold get
  split <;> rfl

theorem set_spares (now : ℚ) {put key : String} (hne : key ≠ put) (content : String) (ex : Option ℤ) :
    (set now put content ex).Spares key := by
  intro server
  cases ex with
  | none => simp [set, Function.update_of_ne hne]
  | some seconds =>
    simp only [set]
    split
    · rfl
    · simp [Function.update_of_ne hne]

theorem incr_spares {counted key : String} (hne : key ≠ counted) : (incr counted).Spares key := by
  intro server
  unfold incr
  split
  · exact Function.update_of_ne hne _ _
  · split
    · rfl
    · split
      · exact Function.update_of_ne hne _ _
      · rfl
  · rfl

theorem expire_spares (now : ℚ) {touched key : String} (hne : key ≠ touched) (seconds : ℤ) :
    (expire now touched seconds).Spares key := by
  intro server
  unfold expire
  split
  · rfl
  · split
    · exact Function.update_of_ne hne _ _
    · exact Function.update_of_ne hne _ _

theorem delete_spares {deleted key : String} (hne : key ≠ deleted) : (delete deleted).Spares key :=
  fun _ => Function.update_of_ne hne _ _

theorem incr_expire_spares (now : ℚ) {counted key : String} (hne : key ≠ counted) (seconds : ℤ) :
    (incr_expire now counted seconds).Spares key :=
  fun server => (expire_spares now hne seconds _).trans (incr_spares hne server)

theorem eval_spares (numerals : Numerals) (now : ℚ) {counted key : String} (hne : key ≠ counted)
    (window_seconds : ℤ) (member : String) (max_hits : ℤ) :
    (eval numerals now counted window_seconds member max_hits).Spares key := by
  intro server
  unfold eval
  split
  · rfl
  · exact Function.update_of_ne hne _ _

/-- An entry without expiry survives every command that leaves it alone, run or
    not. -/
theorem call_persistent {R : Type} {self : Server} {key : String} {value : RedisValue}
    (hentry : self key = some ⟨value, none⟩) {command : Command R} (hspares : command.Spares key)
    (contact : Contact) : (self.call contact command).2 key = some ⟨value, none⟩ := by
  have hkept := expire_keys_persistent hentry contact
  unfold call
  cases contact.fault with
  | none => exact (hspares _).trans hkept
  | before => exact hkept
  | after => exact (hspares _).trans hkept

/-- A reply comes back only from a command that was run. -/
theorem call_eq_some {R : Type} {self : Server} {contact : Contact} {command : Command R} {reply : R}
    {next : Server} (hcall : self.call contact command = (some reply, next)) :
    command (self.expire_keys contact) = (some reply, next) := by
  unfold call at hcall
  cases hfault : contact.fault with
  | none => simpa [hfault] using hcall
  | before => simp [hfault] at hcall
  | after => simp [hfault] at hcall

end Server

namespace RedisStorage

variable {Address V : Type}

/-- Values and hit counters share the server under keys of their own. -/
theorem build_data_key_ne_counter_key (hexdigest : String → String) (self : RedisStorage V)
    (key request_key handler_name : String) (rule_index : Nat) :
    self.build_data_key key ≠ self.build_counter_key hexdigest request_key handler_name rule_index := by
  intro heq
  have hcounter : ∃ tail, self.build_counter_key hexdigest request_key handler_name rule_index =
      self.key_prefix ++ (":counter:" ++ tail) := by
    unfold build_counter_key
    simp only
    split <;> exact ⟨_, by simp only [String.append_assoc]; rfl⟩
  obtain ⟨tail, htail⟩ := hcounter
  rw [build_data_key, htail, String.append_assoc] at heq
  have hsame := append_left_injective heq
  have hdata := starts_with_append ":data:" key
  rw [hsame] at hdata
  rcases starts_with_comparable hdata (starts_with_append ":counter:" tail) with h | h <;>
    revert h <;> decide

theorem build_data_key_injective (self : RedisStorage V) {first second : String}
    (heq : self.build_data_key first = self.build_data_key second) : first = second :=
  append_left_injective heq

/-- From one state to a later one a persistent entry of a key is not lost. -/
structure Keeps (key : String) (earlier later : RedisStorage V) : Prop where
  control_failure_mode : later.control_failure_mode = earlier.control_failure_mode
  key_prefix : later.key_prefix = earlier.key_prefix
  entry : ∀ value, earlier.client key = some ⟨value, none⟩ → later.client key = some ⟨value, none⟩

section Operations

variable {key : String} {self : RedisStorage V}

theorem Keeps.refl : Keeps key self self := ⟨rfl, rfl, fun _ => id⟩

theorem Keeps.trans {middle last : RedisStorage V} (hfirst : Keeps key self middle)
    (hsecond : Keeps key middle last) : Keeps key self last where
  control_failure_mode := hsecond.control_failure_mode.trans hfirst.control_failure_mode
  key_prefix := hsecond.key_prefix.trans hfirst.key_prefix
  entry value hentry := hsecond.entry value (hfirst.entry value hentry)

theorem send_keeps {R : Type} {command : Server.Command R} (hspares : command.Spares key) {env : Environment}
    {reply : Option R} {next : RedisStorage V} (hsend : self.send env command = (reply, next)) :
    Keeps key self next := by
  cases hsend
  exact ⟨rfl, rfl, fun _ hentry => Server.call_persistent hentry hspares env.toContact⟩

/-- A call changes the server alone, and replies only after the command was run. -/
theorem send_cases {R : Type} {command : Server.Command R} {env : Environment} {reply : Option R}
    {next : RedisStorage V} (hsend : self.send env command = (reply, next)) :
    ∃ client, next = { self with client } ∧
      ∀ value, reply = some value → command (self.client.expire_keys env.toContact) = (some value, client) := by
  cases hsend
  exact ⟨_, rfl, fun value hvalue => Server.call_eq_some (Prod.ext hvalue rfl)⟩

theorem on_counter_fallback_keeps {R : Type}
    (operation : memory.InMemoryStorage V → R × memory.InMemoryStorage V) :
    Keeps key self (self.on_counter_fallback operation).2 := ⟨rfl, rfl, fun _ => id⟩

theorem on_control_fallback_keeps {R : Type}
    (operation : memory.InMemoryStorage V → R × memory.InMemoryStorage V) :
    Keeps key self (self.on_control_fallback operation).2 := by
  unfold on_control_fallback
  split
  · exact on_counter_fallback_keeps operation
  · exact ⟨rfl, rfl, fun _ => id⟩

/-- The failure handlers do not touch the server. -/
theorem handle_failure_keeps {R : Type} (named : String) (on_open : R)
    (fallback : memory.InMemoryStorage V → Except PyError R × memory.InMemoryStorage V) :
    Keeps key self (self.handle_failure named on_open fallback).2 := by
  unfold handle_failure
  split
  · split
    · exact on_control_fallback_keeps fallback
    · exact .refl
  · split
    · exact .refl
    · exact on_counter_fallback_keeps fallback
    · exact .refl

theorem delete_keeps (env : Environment) {named : String} (hne : key ≠ self.build_data_key named) :
    Keeps key self (self.delete env named).2 := by
  have hspares := Server.delete_spares hne
  unfold delete
  split
  · next hsend => exact (send_keeps hspares hsend).trans (handle_failure_keeps _ _ _)
  · next hsend => exact send_keeps hspares hsend

theorem record_hit_keeps (hexdigest : String → String) (numerals : Numerals) (env : Environment)
    (request_key handler_name : String) (rule_index : Nat) (window_seconds : ℤ) (max_hits : Option ℤ)
    (hne : key ≠ self.build_counter_key hexdigest request_key handler_name rule_index) :
    Keeps key self (self.record_hit hexdigest numerals env request_key handler_name rule_index
      window_seconds max_hits).2 := by
  have hspares := Server.eval_spares numerals env.server_time hne window_seconds env.uuid (max_hits.getD 0)
  unfold record_hit
  split
  · next hsend =>
    refine (send_keeps hspares hsend).trans ?_
    unfold handle_record_hit_failure
    split
    · exact .refl
    · exact on_counter_fallback_keeps _
    · exact .refl
  · next hsend => exact send_keeps hspares hsend

/-- In closed mode a value operation that fails on a control key raises. -/
theorem handle_failure_closed (hclosed : self.control_failure_mode = .fail_closed) {R : Type} {key : String}
    (hcontrol : is_control_key key) (on_open : R)
    (fallback : memory.InMemoryStorage V → Except PyError R × memory.InMemoryStorage V) :
    self.handle_failure key on_open fallback = (.error control_unavailable, self) := by
  simp [handle_failure, hcontrol, hclosed]

variable [PyValue V] (lib : Libraries V)

theorem get_keeps (env : Environment) (named : String) : Keeps key self (self.get lib env named).2 := by
  have hspares := Server.get_spares (self.build_data_key named) key
  unfold get
  split
  · next hsend => exact (send_keeps hspares hsend).trans (handle_failure_keeps _ _ _)
  · next hsend => exact send_keeps hspares hsend

theorem set_keeps (env : Environment) {named : String} (hne : key ≠ self.build_data_key named) (value : V)
    (expire : Option ℤ) : Keeps key self (self.set lib env named value expire).2 := by
  unfold set
  split
  · exact handle_failure_keeps _ _ _
  · next text _ =>
    have hspares := Server.set_spares env.server_time hne text expire
    split
    · next hsend => exact (send_keeps hspares hsend).trans (handle_failure_keeps _ _ _)
    · next hsend => exact send_keeps hspares hsend

theorem incr_keeps (env : Environment) {named : String} (hne : key ≠ self.build_data_key named)
    (expire : Option ℤ) : Keeps key self (self.incr env named expire).2 := by
  unfold incr
  extract_lets command
  have hspares : command.Spares key := by
    cases expire with
    | none => exact Server.incr_spares hne
    | some seconds => exact Server.incr_expire_spares env.server_time hne seconds
  split
  · next hsend => exact (send_keeps hspares hsend).trans (handle_failure_keeps _ _ _)
  · next hsend => exact send_keeps hspares hsend

end Operations

section Calls

variable [PyValue V] (lib : Libraries V)

/-- The storage in one call, as the IP manager uses it. -/
def at_call (env : Environment) : Storage (RedisStorage V) V where
  get self key := self.get lib env key
  set self key value expire := self.set lib env key value expire
  delete self key := self.delete env key

/-- One operation in one call. -/
def operate (numerals : Numerals) (self : RedisStorage V) (env : Environment) :
    Operation V → Except PyError (Reply V) × RedisStorage V
  | .get key => ((self.get lib env key).1.map .value, (self.get lib env key).2)
  | .set key value expire =>
    ((self.set lib env key value expire).1.map (fun _ => .done), (self.set lib env key value expire).2)
  | .incr key expire => ((self.incr env key expire).1.map .count, (self.incr env key expire).2)
  | .delete key => ((self.delete env key).1.map (fun _ => .done), (self.delete env key).2)
  | .record_hit request_key handler_name rule_index window_seconds max_hits =>
    let (result, self) := self.record_hit lib.hexdigest numerals env request_key handler_name rule_index
      window_seconds max_hits
    (result.map .hit, self)
  | .cleanup_handler_counters handler_name => (.ok .done, self.cleanup_handler_counters handler_name)
  | .cleanup_orphaned_counters active_rules => (.ok .done, self.cleanup_orphaned_counters env active_rules)

variable {lib} {self : RedisStorage V}

/-- No operation on other keys loses a value without expiry. -/
theorem operate_keeps (numerals : Numerals) (env : Environment) {operation : Operation V} {key : String}
    (hforeign : ∀ named ∈ operation.key, key ≠ named) :
    Keeps (self.build_data_key key) self (self.operate lib numerals env operation).2 := by
  have hne : ∀ named ∈ operation.key, self.build_data_key key ≠ self.build_data_key named :=
    fun named hnamed heq => hforeign named hnamed (self.build_data_key_injective heq)
  cases operation with
  | get named => exact get_keeps lib env named
  | set named value expire => exact set_keeps lib env (hne named rfl) value expire
  | incr named expire => exact incr_keeps env (hne named rfl) expire
  | delete named => exact delete_keeps env (hne named rfl)
  | record_hit request_key handler_name rule_index window_seconds max_hits =>
    exact record_hit_keeps lib.hexdigest numerals env request_key handler_name rule_index window_seconds max_hits
      (self.build_data_key_ne_counter_key lib.hexdigest key request_key handler_name rule_index)
  | cleanup_handler_counters handler_name => exact ⟨rfl, rfl, fun _ => id⟩
  | cleanup_orphaned_counters active_rules => exact ⟨rfl, rfl, fun _ => id⟩

end Calls

section Blocks

variable [PyValue V] (lib : Libraries V) (ips : IpLibrary Address) (address : Address)

/-- A call on an IP manager that neither sets nor clears the block of an
    address. -/
def LeavesBlock (operation : IpOperation) : Prop :=
  (∀ ip duration, operation.sets = some (.block, ip, duration) → ips.ip_address ip ≠ some address) ∧
    ∀ ip, operation.clears = some (.block, ip) → ips.ip_address ip ≠ some address

/-- The server holds the block of an address without expiry, and the storage
    raises when it cannot ask for it. -/
structure Blocks (storage : RedisStorage V) : Prop where
  closed : storage.control_failure_mode = .fail_closed
  entry : ∃ dumped, lib.json_dumps (PyValue.str "1") = some dumped ∧
    storage.client (storage.build_data_key (Control.block.key ips address)) =
      some ⟨.text (JSON_PREFIX ++ dumped), none⟩

variable {lib ips address} {self : RedisStorage V}

theorem Blocks.keep (hblocks : self.Blocks lib ips address) {later : RedisStorage V}
    (hkeeps : Keeps (self.build_data_key (Control.block.key ips address)) self later) :
    later.Blocks lib ips address := by
  obtain ⟨dumped, hdumped, hentry⟩ := hblocks.entry
  refine ⟨hkeeps.control_failure_mode.trans hblocks.closed, dumped, hdumped, ?_⟩
  rw [build_data_key, hkeeps.key_prefix]
  exact hkeeps.entry _ hentry

theorem Blocks.operate (hblocks : self.Blocks lib ips address) (numerals : Numerals) (env : Environment)
    {operation : Operation V} (hforeign : ∀ named ∈ operation.key, Control.block.key ips address ≠ named) :
    (self.operate lib numerals env operation).2.Blocks lib ips address :=
  hblocks.keep (operate_keeps numerals env hforeign)

theorem Blocks.has_control (hblocks : self.Blocks lib ips address) (env : Environment) (beginning ip : String) :
    (has_control ips (at_call lib env) beginning self ip).2.Blocks lib ips address := by
  unfold ip_manager.has_control
  split
  · exact hblocks
  · next normalized_ip _ =>
    have hget := hblocks.keep (get_keeps lib env (beginning ++ normalized_ip))
    split
    · next hnext => rwa [show self.get lib env (beginning ++ normalized_ip) = _ from hnext] at hget
    · next hnext => rwa [show self.get lib env (beginning ++ normalized_ip) = _ from hnext] at hget

theorem Blocks.manage (hblocks : self.Blocks lib ips address) (env : Environment) {operation : IpOperation}
    (hleaves : LeavesBlock ips address operation) :
    (manage ips (at_call lib env) self operation).2.Blocks lib ips address := by
  rcases operation.sets_or_clears_or_asks with ⟨control, ip, duration, hsets⟩ | ⟨_, control, ip, hclears⟩ |
    ⟨_, _, control, ip, hasks⟩
  · rw [manage_of_sets hsets, put_control]
    cases hsource : ips.ip_address ip with
    | none => simpa [normalize_ip, hsource] using hblocks
    | some source =>
      rw [normalize_ip_of_address hsource]
      refine hblocks.keep (set_keeps lib env (fun heq => ?_) (PyValue.str "1") duration)
      obtain ⟨rfl, rfl⟩ := Control.key_injective (self.build_data_key_injective heq)
      exact hleaves.1 ip duration hsets hsource
  · rw [manage_of_clears hclears, drop_control]
    cases hsource : ips.ip_address ip with
    | none => simpa [normalize_ip, hsource] using hblocks
    | some source =>
      rw [normalize_ip_of_address hsource]
      refine hblocks.keep (delete_keeps env (fun heq => ?_))
      obtain ⟨rfl, rfl⟩ := Control.key_injective (self.build_data_key_injective heq)
      exact hleaves.2 ip hclears hsource
  · rw [manage_of_asks hasks]
    exact hblocks.has_control env control.beginning ip

/-- A block that returned normally is on the server. -/
theorem blocks_of_block_ip (hclosed : self.control_failure_mode = .fail_closed) {env : Environment} {ip : String}
    (haddress : ips.ip_address ip = some address)
    (hreturned : (block_ip ips (at_call lib env) self ip none).1 = .ok ()) :
    (block_ip ips (at_call lib env) self ip none).2.Blocks lib ips address := by
  have hblock : block_ip ips (at_call lib env) self ip none =
      self.set lib env (Control.block.key ips address) (PyValue.str "1") none := by
    rw [block_ip, put_control, normalize_ip_of_address haddress]
    rfl
  have hcontrol : is_control_key (Control.block.key ips address) := Control.key_starts_with ips .block address
  rw [hblock] at hreturned ⊢
  simp only [set, serialize_value, lib.bytes_text_str] at hreturned ⊢
  cases hdumped : lib.json_dumps (PyValue.str "1") with
  | none =>
    simp [hdumped, handle_set_failure, handle_failure_closed hclosed hcontrol] at hreturned
  | some dumped =>
    simp only [hdumped, Option.map_some] at hreturned ⊢
    split at hreturned
    · next next hsend =>
      obtain ⟨client, rfl, -⟩ := send_cases hsend
      rw [handle_set_failure, handle_failure_closed (by exact hclosed) hcontrol] at hreturned
      cases hreturned
    · next next hsend =>
      obtain ⟨client, rfl, hset⟩ := send_cases hsend
      have hclient : client = _ := (congrArg Prod.snd (hset () rfl)).symm
      refine ⟨hclosed, dumped, hdumped, ?_⟩
      simp only [hclient]
      exact Function.update_self _ _ _

/-- Behind its marker a text is read as JSON. -/
theorem deserialize_value_marked (lib : Libraries V) (dumped : String) :
    deserialize_value lib (some (JSON_PREFIX ++ dumped)) = lib.json_loads dumped := by
  simp only [deserialize_value, starts_with_append, if_true]
  rw [String.toList_append, List.drop_left, String.ofList_toList]

/-- Reading a block on the server gives what was stored or raises. -/
theorem Blocks.get (hblocks : self.Blocks lib ips address) (env : Environment) :
    (self.get lib env (Control.block.key ips address)).1 = .ok (PyValue.str "1") ∨
      (self.get lib env (Control.block.key ips address)).1 = .error control_unavailable := by
  obtain ⟨dumped, hdumped, hentry⟩ := hblocks.entry
  have hcontrol : is_control_key (Control.block.key ips address) := Control.key_starts_with ips .block address
  unfold RedisStorage.get
  split
  · next next hsend =>
    obtain ⟨client, rfl, -⟩ := send_cases hsend
    rw [handle_get_failure, handle_failure_closed (by exact hblocks.closed) hcontrol]
    exact Or.inr rfl
  · next value next hsend =>
    obtain ⟨client, rfl, hget⟩ := send_cases hsend
    have hvalue := congrArg Prod.fst (hget value rfl)
    rw [Server.get, Server.expire_keys_persistent hentry] at hvalue
    cases hvalue
    exact Or.inl ((deserialize_value_marked lib dumped).trans (lib.json_loads_dumps "1" dumped hdumped))

/-- A lookup of a blocked address says so or raises. -/
theorem Blocks.is_blocked (hblocks : self.Blocks lib ips address) (env : Environment) {ip : String}
    (haddress : ips.ip_address ip = some address) :
    (is_blocked ips (at_call lib env) self ip).1 = .ok true ∨
      (is_blocked ips (at_call lib env) self ip).1 = .error control_unavailable := by
  have hlookup := has_control_of_address haddress (at_call lib env) self .block
  change (ip_manager.is_blocked ips (at_call lib env) self ip).1 =
    (self.get lib env (Control.block.key ips address)).1.map _ at hlookup
  rw [hlookup]
  rcases hblocks.get env with hget | hget
  · rw [hget]
    exact Or.inl (by simp [Except.map, PyValue.is_none_str])
  · rw [hget]
    exact Or.inr rfl

end Blocks

end RedisStorage

end response_bandwidth_limiter.redis

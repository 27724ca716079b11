import ResponseBandwidthLimiter.Backends.Memory.IpControls
import ResponseBandwidthLimiter.Backends.Redis.Values

open collections
open response_bandwidth_limiter.base response_bandwidth_limiter.ip_manager response_bandwidth_limiter.memory

namespace response_bandwidth_limiter.redis

/-- The store that serves a call. -/
inductive Serving where
  | server
  | fallback
  deriving DecidableEq, Repr

/-- Whether an entry can still be read in a store: on the server also at the time
    of its expiry. -/
def Serving.reads {A : Type} (store : Serving) (now : ℚ) (entry : Timed A ℚ) : Bool :=
  match store with
  | .server => entry.lasts now
  | .fallback => entry.alive now

/-- Whether a duration that ends at a time has not elapsed in a store: the server
    keeps a key until its expiry has passed, the fallback until it has come. -/
def Serving.Within (store : Serving) (now ending : ℚ) : Prop :=
  match store with
  | .server => now ≤ ending
  | .fallback => now < ending

theorem Serving.reads_expiry_iff {store : Serving} {written now : ℚ} {duration : Option ℤ} :
    store.reads now (⟨(), InMemoryStorage.expiry written duration⟩ : Timed Unit ℚ) = true ↔
      ∀ seconds ∈ duration, store.Within now (written + (seconds : ℤ)) := by
  cases store with
  | server =>
    rw [Serving.reads, Timed.lasts_iff]
    cases duration <;> simp [InMemoryStorage.expiry, Serving.Within]
  | fallback => exact InMemoryStorage.alive_expiry_iff ()

/-- A call on an IP manager, and what it meets. -/
structure ControlCall where
  env : Environment
  operation : IpOperation

namespace ControlCall

/-- A call whose exception is raised before its command is sent is served by the
    fallback. -/
def serving (self : ControlCall) : Serving := if self.env.fault = .none then .server else .fallback

/-- The clock reading of a call by which a store lets entries expire. -/
def clock (self : ControlCall) : Serving → ℚ
  | .server => self.env.server_time
  | .fallback => self.env.monotonic

/-- The block of an address that a call sets or clears. -/
def change (self : ControlCall) : Option (Change Serving Unit ℚ) :=
  match self.operation with
  | .block_ip _ duration =>
    some (self.serving, some ⟨(), InMemoryStorage.expiry (self.clock self.serving) duration⟩)
  | .unblock_ip _ => some (self.serving, none)
  | _ => none

/-- A block, an unblock or a lookup of one address, under any of its spellings. -/
def Concerns {Address : Type} (ips : IpLibrary Address) (address : Address) (self : ControlCall) : Prop :=
  ∃ ip, ips.ip_address ip = some address ∧
    ((∃ duration, self.operation = .block_ip ip duration) ∨ self.operation = .unblock_ip ip ∨
      self.operation = .is_blocked ip)

end ControlCall

/-- The entry of a block as a store holds it. -/
def as_value {A : Type} (value : A) (entry : Timed Unit ℚ) : Timed A ℚ := ⟨value, entry.expires_at⟩

theorem live_map_as_value {A : Type} (value : A) (now : ℚ) (entry : Option (Timed Unit ℚ)) :
    live now (entry.map (as_value value)) = (live now entry).map (as_value value) := by
  unfold live
  rw [Option.filter_map]
  rfl

theorem lasting_map_as_value {A : Type} (value : A) (now : ℚ) (entry : Option (Timed Unit ℚ)) :
    lasting now (entry.map (as_value value)) = (lasting now entry).map (as_value value) := by
  unfold lasting
  rw [Option.filter_map]
  rfl

theorem Server.lasting_expire_keys {self : Server} {contact : Contact} {later : ℚ}
    (hle : contact.server_time ≤ later) {key content : String}
    (htext : ∀ entry, self key = some entry → entry.value = .text content) :
    lasting later (self.expire_keys contact key) = lasting later (self key) := by
  cases hentry : self key with
  | none => simp [Server.expire_keys, hentry]
  | some entry =>
    obtain ⟨value, expires_at⟩ := entry
    obtain rfl : value = .text content := htext _ hentry
    rw [Server.expire_keys_of_text hentry, hentry, lasting_lasting_of_le hle]

namespace RedisStorage

variable {V : Type}

/-- The store that serves control keys when the client raises. -/
def control_fallback (self : RedisStorage V) : InMemoryStorage V :=
  self.control_fallback_storage.getD self.counter_fallback_storage

/-- What a failed call leaves: the fallback after the operation, and the server
    as it is. -/
structure FellBack (before next : RedisStorage V) (after : InMemoryStorage V) : Prop where
  client : next.client = before.client
  key_prefix : next.key_prefix = before.key_prefix
  control_failure_mode : next.control_failure_mode = before.control_failure_mode
  control_fallback : next.control_fallback = after

/-- In fallback mode a failed call on a control key is the fallback's. -/
theorem handle_failure_fallback (self : RedisStorage V)
    (hmode : self.control_failure_mode = .local_memory_fallback) {R : Type} {key : String}
    (hcontrol : is_control_key key) (on_open : R)
    (operation : InMemoryStorage V → Except PyError R × InMemoryStorage V) :
    (self.handle_failure key on_open operation).1 = (operation self.control_fallback).1 ∧
      FellBack self (self.handle_failure key on_open operation).2 (operation self.control_fallback).2 := by
  simp only [handle_failure, hcontrol, if_true, hmode, on_control_fallback, control_fallback]
  cases hstorage : self.control_fallback_storage with
  | none =>
    refine ⟨rfl, rfl, rfl, rfl, ?_⟩
    simp only [control_fallback, on_counter_fallback, hstorage, Option.getD_none]
  | some storage => exact ⟨rfl, rfl, rfl, hmode.symm, rfl⟩

section Served

variable [PyValue V] {lib : Libraries V} {env : Environment} {key : String} {self : RedisStorage V}

/-- The storage after a call that met only the server's clock. -/
def tick (self : RedisStorage V) (env : Environment) : RedisStorage V :=
  { self with client := self.client.expire_keys env.toContact }

omit [PyValue V] in
theorem send_of_fault (hfault : env.fault = .before) {R : Type} (command : Server.Command R) :
    self.send env command = (none, self.tick env) := by
  simp only [send, Server.call, hfault, tick]

omit [PyValue V] in
theorem send_of_healthy (hhealthy : env.fault = .none) {R : Type} (command : Server.Command R) :
    self.send env command = ((command (self.client.expire_keys env.toContact)).1,
      { self with client := (command (self.client.expire_keys env.toContact)).2 }) := by
  simp only [send, Server.call_of_healthy hhealthy]

/-- A `set` that returned is on the server, or in the fallback. -/
theorem set_served (hmode : self.control_failure_mode = .local_memory_fallback) (hcontrol : is_control_key key)
    {value : V} {text : String} (htext : serialize_value lib value = some text) (hfault : env.fault ≠ .after)
    {expire : Option ℤ} (hreturns : (self.set lib env key value expire).1 = .ok ()) :
    (env.fault = .none ∧ (self.set lib env key value expire).2 = { self with
      client := Function.update (self.client.expire_keys env.toContact) (self.build_data_key key)
        (some ⟨.text text, InMemoryStorage.expiry env.server_time expire⟩) }) ∨
    (env.fault = .before ∧ (self.control_fallback.set env.monotonic key value expire).1 = .ok () ∧
      FellBack (self.tick env) (self.set lib env key value expire).2
        (self.control_fallback.set env.monotonic key value expire).2) := by
  unfold RedisStorage.set at hreturns ⊢
  simp only [htext] at hreturns ⊢
  cases hcase : env.fault with
  | after => exact absurd hcase hfault
  | before =>
    rw [send_of_fault hcase] at hreturns ⊢
    obtain ⟨hresult, hfell⟩ := (self.tick env).handle_failure_fallback hmode hcontrol ()
      (fun storage => storage.set env.monotonic key value expire)
    refine Or.inr ⟨rfl, hresult.symm.trans hreturns, hfell⟩
  | none =>
    rw [send_of_healthy hcase] at hreturns ⊢
    cases hvalid : validate_expire expire with
    | ok _ =>
      rw [Server.set_of_valid _ _ _ hvalid]
      exact Or.inl ⟨rfl, rfl⟩
    | error e =>
      have hfails : Server.set env.server_time (self.build_data_key key) text expire
          (self.client.expire_keys env.toContact) = (none, self.client.expire_keys env.toContact) := by
        cases expire with
        | none => cases hvalid
        | some seconds =>
          refine if_pos (not_lt.mp fun hpos => ?_)
          rw [validate_expire_ok_iff.mpr (by simpa using hpos)] at hvalid
          cases hvalid
      rw [hfails] at hreturns
      have hresult := ((self.tick env).handle_failure_fallback hmode hcontrol ()
        (fun storage => storage.set env.monotonic key value expire)).1
      have hraises : (self.control_fallback.set env.monotonic key value expire).1 = .ok () :=
        hresult.symm.trans hreturns
      simp only [InMemoryStorage.set, hvalid, reduceCtorEq] at hraises

omit [PyValue V] in
theorem delete_served (hmode : self.control_failure_mode = .local_memory_fallback) (hcontrol : is_control_key key)
    (hfault : env.fault ≠ .after) :
    (env.fault = .none ∧ (self.delete env key).2 = { self with
      client := Function.update (self.client.expire_keys env.toContact) (self.build_data_key key) none }) ∨
    (env.fault = .before ∧ FellBack (self.tick env) (self.delete env key).2 (self.control_fallback.delete key)) := by
  unfold RedisStorage.delete
  cases hcase : env.fault with
  | after => exact absurd hcase hfault
  | before =>
    rw [send_of_fault hcase]
    exact Or.inr ⟨rfl, ((self.tick env).handle_failure_fallback hmode hcontrol () _).2⟩
  | none =>
    rw [send_of_healthy hcase]
    exact Or.inl ⟨rfl, rfl⟩

/-- A `get` reads the server, whose text at the key is known, or the fallback. -/
theorem get_served (lib : Libraries V) (hmode : self.control_failure_mode = .local_memory_fallback)
    (hcontrol : is_control_key key)
    (hfault : env.fault ≠ .after) {content : String}
    (htext : ∀ entry, self.client (self.build_data_key key) = some entry → entry.value = .text content) :
    (env.fault = .none ∧ (self.get lib env key).2 = self.tick env ∧
      (self.get lib env key).1 = (lasting env.server_time (self.client (self.build_data_key key))).elim
        (.ok PyValue.none) (fun _ => deserialize_value lib (some content))) ∨
    (env.fault = .before ∧ (self.get lib env key).1 = .ok (self.control_fallback.get env.monotonic key).1 ∧
      FellBack (self.tick env) (self.get lib env key).2 (self.control_fallback.get env.monotonic key).2) := by
  unfold RedisStorage.get
  cases hcase : env.fault with
  | after => exact absurd hcase hfault
  | before =>
    rw [send_of_fault hcase]
    exact Or.inr ⟨rfl, (self.tick env).handle_failure_fallback hmode hcontrol PyValue.none _⟩
  | none =>
    rw [send_of_healthy hcase]
    cases hentry : self.client (self.build_data_key key) with
    | none =>
      have hexpired : self.client.expire_keys env.toContact (self.build_data_key key) = none := by
        simp [Server.expire_keys, hentry]
      simp only [Server.get, hexpired]
      exact Or.inl ⟨trivial, rfl, rfl⟩
    | some entry =>
      obtain ⟨value, expires_at⟩ := entry
      obtain rfl : value = .text content := htext _ hentry
      have hread := Server.expire_keys_of_text hentry env.toContact
      rw [hentry] at hread
      cases hlasts : Timed.lasts env.server_time (⟨.text content, expires_at⟩ : Timed RedisValue ℚ) with
      | true =>
        rw [lasting_some_of_lasts hlasts] at hread ⊢
        simp only [Server.get, hread]
        exact Or.inl ⟨trivial, rfl, rfl⟩
      | false =>
        rw [lasting_some_of_not_lasts hlasts] at hread ⊢
        simp only [Server.get, hread]
        exact Or.inl ⟨trivial, rfl, rfl⟩

end Served

section Calls

variable [PyValue V] {Address : Type}

/-- What a call does to the entries of a block in the two stores, where the
    entries of a later time are those of a log of changes. -/
structure Follows (key marked : String) (call : ControlCall) (before next : RedisStorage V) : Prop where
  control_failure_mode : next.control_failure_mode = before.control_failure_mode
  key_prefix : next.key_prefix = before.key_prefix
  text : (∀ entry, before.client (before.build_data_key key) = some entry → entry.value = .text marked) →
    ∀ entry, next.client (before.build_data_key key) = some entry → entry.value = .text marked
  on_server : (∀ entry, before.client (before.build_data_key key) = some entry → entry.value = .text marked) →
    ∀ later log, call.clock .server ≤ later →
    lasting later (before.client (before.build_data_key key)) = (lasting later log).map (as_value (.text marked)) →
    lasting later (next.client (before.build_data_key key)) =
      (lasting later (changed ControlCall.change .server log call)).map (as_value (.text marked))
  on_fallback : ∀ later log, call.clock .fallback ≤ later →
    before.control_fallback.visible (call.clock .fallback) key =
      (live (call.clock .fallback) log).map (as_value (PyValue.str "1")) →
    next.control_fallback.visible later key =
      (live later (changed ControlCall.change .fallback log call)).map (as_value (PyValue.str "1"))

variable {key marked : String} {call : ControlCall} {self next : RedisStorage V}

omit [PyValue V] in
theorem text_of_tick
    (htext : ∀ entry, self.client (self.build_data_key key) = some entry → entry.value = .text marked)
    (env : Environment) :
    ∀ entry, self.client.expire_keys env.toContact (self.build_data_key key) = some entry →
      entry.value = .text marked := by
  intro entry hentry
  cases hstored : self.client (self.build_data_key key) with
  | none => simp [Server.expire_keys, hstored] at hentry
  | some stored =>
    rcases Server.expire_keys_of_some hstored env.toContact with hkept | ⟨hgone, -⟩
    · rw [hkept] at hentry
      cases hentry
      exact htext _ hstored
    · rw [hgone] at hentry
      cases hentry

/-- A store that does not serve a call only sees time go by. -/
theorem changed_of_serving {store : Serving} (hother : call.serving ≠ store) (log : Option (Timed Unit ℚ)) :
    changed ControlCall.change store log call = log := by
  refine changed_of_ne ?_ log
  intro target htarget
  unfold ControlCall.change at htarget
  cases hoperation : call.operation <;> rw [hoperation] at htarget <;> cases htarget <;> exact hother

theorem visible_later {later now : ℚ} {log : Option (Timed Unit ℚ)} {fallback : InMemoryStorage V}
    (hle : now ≤ later)
    (hvisible : fallback.visible now key = (live now log).map (as_value (PyValue.str "1"))) :
    fallback.visible later key = (live later log).map (as_value (PyValue.str "1")) := by
  rw [InMemoryStorage.visible_advance _ hle, hvisible, live_map_as_value, live_live_of_le hle]

/-- A call that the fallback served. -/
theorem Follows.of_fell_back {after : InMemoryStorage V} (hfault : call.env.fault = .before)
    (hfell : FellBack (self.tick call.env) next after)
    (hafter : ∀ log, self.control_fallback.visible call.env.monotonic key =
        (live call.env.monotonic log).map (as_value (PyValue.str "1")) →
      after.visible call.env.monotonic key =
        (live call.env.monotonic (changed ControlCall.change .fallback log call)).map (as_value (PyValue.str "1"))) :
    Follows key marked call self next where
  control_failure_mode := hfell.control_failure_mode
  key_prefix := hfell.key_prefix
  text htext := by
    rw [hfell.client]
    exact text_of_tick htext call.env
  on_server htext later log hle hserver := by
    have hother : call.serving ≠ .server := by simp [ControlCall.serving, hfault]
    rw [hfell.client, changed_of_serving hother, ← hserver]
    exact Server.lasting_expire_keys hle htext
  on_fallback later log hle hfallback := by
    rw [hfell.control_fallback]
    exact visible_later hle (hafter log hfallback)

/-- A call that the server served. -/
theorem Follows.of_served {client : Server} (hfault : call.env.fault = .none) (hnext : next = { self with client })
    (htext : (∀ entry, self.client (self.build_data_key key) = some entry → entry.value = .text marked) →
      ∀ entry, client (self.build_data_key key) = some entry → entry.value = .text marked)
    (hserver : ∀ later log, call.clock .server ≤ later →
      lasting later (self.client (self.build_data_key key)) = (lasting later log).map (as_value (.text marked)) →
      lasting later (client (self.build_data_key key)) =
        (lasting later (changed ControlCall.change .server log call)).map (as_value (.text marked))) :
    Follows key marked call self next := by
  subst hnext
  refine ⟨rfl, rfl, htext, fun _ => hserver, fun later log hle hfallback => ?_⟩
  have hother : call.serving ≠ .fallback := by simp [ControlCall.serving, hfault]
  rw [changed_of_serving hother]
  exact visible_later hle hfallback

variable {ips : IpLibrary Address} {address : Address} {lib : Libraries V} {dumped : String}

/-- The IP manager's call, in one call of the storage. -/
def control (ips : IpLibrary Address) (lib : Libraries V) (self : RedisStorage V) (call : ControlCall) :
    Except PyError (Reply V) × RedisStorage V :=
  manage ips (at_call lib call.env) self call.operation

theorem block_ip_follows (hmode : self.control_failure_mode = .local_memory_fallback)
    (hdumped : lib.json_dumps (PyValue.str "1") = some dumped) (hfault : call.env.fault ≠ .after) {ip : String}
    {duration : Option ℤ} (hoperation : call.operation = .block_ip ip duration)
    (haddress : ips.ip_address ip = some address) {reply : Reply V}
    (hreturns : (self.control ips lib call).1 = .ok reply) :
    Follows (Control.block.key ips address) (JSON_PREFIX ++ dumped) call self (self.control ips lib call).2 := by
  have hcontrol : is_control_key (Control.block.key ips address) := Control.key_starts_with ips .block address
  have htext : serialize_value lib (PyValue.str "1" : V) = some (JSON_PREFIX ++ dumped) := by
    simp [serialize_value, lib.bytes_text_str, hdumped]
  have hcall : self.control ips lib call =
      ((self.set lib call.env (Control.block.key ips address) (PyValue.str "1") duration).1.map (fun _ => .done),
        (self.set lib call.env (Control.block.key ips address) (PyValue.str "1") duration).2) := by
    simp only [control, hoperation, manage, block_ip, put_control, normalize_ip_of_address haddress]
    rfl
  rw [hcall] at hreturns ⊢
  have hset : (self.set lib call.env (Control.block.key ips address) (PyValue.str "1") duration).1 = .ok () := by
    cases hresult : (self.set lib call.env (Control.block.key ips address) (PyValue.str "1") duration).1 with
    | error e => simp [hresult, Except.map] at hreturns
    | ok _ => rfl
  rcases set_served hmode hcontrol htext hfault hset with ⟨hhealthy, hnext⟩ | ⟨hbefore, hstored, hfell⟩
  · have hserving : call.serving = .server := if_pos hhealthy
    refine .of_served hhealthy hnext (fun _ entry hentry => ?_) (fun later log hle _ => ?_)
    · rw [Function.update_self] at hentry
      cases hentry
      rfl
    · have hchange : changed ControlCall.change .server log call =
          some ⟨(), InMemoryStorage.expiry call.env.server_time duration⟩ := by
        simp [changed, ControlCall.change, hoperation, hserving, ControlCall.clock]
      rw [Function.update_self, hchange, ← lasting_map_as_value]
      rfl
  · have hserving : call.serving = .fallback := if_neg (by simp [hbefore])
    apply Follows.of_fell_back hbefore hfell
    intro log _
    have hchange : changed ControlCall.change .fallback log call =
        some ⟨(), InMemoryStorage.expiry call.env.monotonic duration⟩ := by
      simp [changed, ControlCall.change, hoperation, hserving, ControlCall.clock]
    have hvisible := InMemoryStorage.visible_set self.control_fallback call.env.monotonic
      (Control.block.key ips address) (PyValue.str "1") duration hcontrol
    rw [if_pos ⟨rfl, hstored⟩] at hvisible
    have halive := InMemoryStorage.visible_advance
      (self.control_fallback.set call.env.monotonic (Control.block.key ips address) (PyValue.str "1") duration).2
      (le_refl call.env.monotonic) (Control.block.key ips address)
    rw [hchange, ← live_map_as_value, halive, hvisible]
    rfl

theorem unblock_ip_follows (hmode : self.control_failure_mode = .local_memory_fallback)
    (hfault : call.env.fault ≠ .after) {ip : String} (hoperation : call.operation = .unblock_ip ip)
    (haddress : ips.ip_address ip = some address) :
    Follows (Control.block.key ips address) (JSON_PREFIX ++ dumped) call self (self.control ips lib call).2 := by
  have hcontrol : is_control_key (Control.block.key ips address) := Control.key_starts_with ips .block address
  have hcall : (self.control ips lib call).2 = (self.delete call.env (Control.block.key ips address)).2 := by
    simp only [control, hoperation, manage, unblock_ip, drop_control, normalize_ip_of_address haddress]
    rfl
  rw [hcall]
  rcases delete_served hmode hcontrol hfault with ⟨hhealthy, hnext⟩ | ⟨hbefore, hfell⟩
  · have hserving : call.serving = .server := if_pos hhealthy
    refine .of_served hhealthy hnext (fun _ entry hentry => ?_) (fun later log _ _ => ?_)
    · rw [Function.update_self] at hentry
      cases hentry
    · have hchange : changed ControlCall.change .server log call = none := by
        simp [changed, ControlCall.change, hoperation, hserving]
      rw [Function.update_self, hchange]
      rfl
  · have hserving : call.serving = .fallback := if_neg (by simp [hbefore])
    apply Follows.of_fell_back hbefore hfell
    intro log _
    have hchange : changed ControlCall.change .fallback log call = none := by
      simp [changed, ControlCall.change, hoperation, hserving]
    rw [hchange, InMemoryStorage.visible_delete, if_pos rfl]
    rfl

/-- A lookup answers by the entry of the store that serves it. -/
theorem is_blocked_served (hmode : self.control_failure_mode = .local_memory_fallback)
    (hdumped : lib.json_dumps (PyValue.str "1") = some dumped) (hfault : call.env.fault ≠ .after) {ip : String}
    (hoperation : call.operation = .is_blocked ip) (haddress : ips.ip_address ip = some address)
    (htext : ∀ entry, self.client (self.build_data_key (Control.block.key ips address)) = some entry →
      entry.value = .text (JSON_PREFIX ++ dumped)) :
    Follows (Control.block.key ips address) (JSON_PREFIX ++ dumped) call self (self.control ips lib call).2 ∧
    ∀ log : Serving → Option (Timed Unit ℚ),
      lasting call.env.server_time (self.client (self.build_data_key (Control.block.key ips address))) =
        (lasting call.env.server_time (log .server)).map (as_value (.text (JSON_PREFIX ++ dumped))) →
      self.control_fallback.visible call.env.monotonic (Control.block.key ips address) =
        (live call.env.monotonic (log .fallback)).map (as_value (PyValue.str "1")) →
      (self.control ips lib call).1 =
        .ok (.answer ((log call.serving).filter (call.serving.reads (call.clock call.serving))).isSome) := by
  have hcontrol : is_control_key (Control.block.key ips address) := Control.key_starts_with ips .block address
  have hlookup := has_control_of_address haddress (at_call lib call.env) self .block
  have hresult : (self.control ips lib call).1 =
      ((self.get lib call.env (Control.block.key ips address)).1.map (fun value => !PyValue.is_none value)).map
        .answer := by
    simp only [control, hoperation, manage, is_blocked]
    exact congrArg _ hlookup
  have hnext : (self.control ips lib call).2 = (self.get lib call.env (Control.block.key ips address)).2 := by
    simp only [control, hoperation, manage, is_blocked]
    exact has_control_state haddress (at_call lib call.env) self .block
  have hunchanged : ∀ store log, changed ControlCall.change store log call = log := by
    intro store log
    simp [changed, ControlCall.change, hoperation]
  rw [hnext, hresult]
  rcases get_served lib hmode hcontrol hfault htext with ⟨hhealthy, hsame, hread⟩ | ⟨hbefore, hread, hfell⟩
  · have hserving : call.serving = .server := if_pos hhealthy
    refine ⟨.of_served hhealthy hsame (fun htext => text_of_tick htext call.env) (fun later log hle hserver => ?_),
      fun log hserver _ => ?_⟩
    · rw [hunchanged, ← hserver]
      exact Server.lasting_expire_keys hle htext
    · have hfound : deserialize_value lib (some (JSON_PREFIX ++ dumped)) = .ok (PyValue.str "1") :=
        (deserialize_value_marked lib dumped).trans (lib.json_loads_dumps "1" dumped hdumped)
      rw [hread, hserver, hserving, ControlCall.clock]
      change _ = (.ok (.answer (lasting call.env.server_time (log .server)).isSome) : Except PyError (Reply V))
      cases lasting call.env.server_time (log .server) with
      | none => simp [Except.map, PyValue.is_none_none]
      | some entry => simp [hfound, Except.map, PyValue.is_none_str]
  · have hserving : call.serving = .fallback := if_neg (by simp [hbefore])
    refine ⟨.of_fell_back hbefore hfell fun log hfallback => ?_, fun log _ hfallback => ?_⟩
    · rw [hunchanged, InMemoryStorage.visible_get, hfallback]
    · rw [hread, InMemoryStorage.get_result, hfallback, hserving, ControlCall.clock]
      change _ = (.ok (.answer (live call.env.monotonic (log .fallback)).isSome) : Except PyError (Reply V))
      cases live call.env.monotonic (log .fallback) with
      | none => simp [Except.map, PyValue.is_none_none]
      | some entry => simp [as_value, Except.map, PyValue.is_none_str]

/-- The step lemma: a call on one address that returns does to the two stores
    what it does to the log of each. -/
theorem control_follows (hmode : self.control_failure_mode = .local_memory_fallback)
    (hdumped : lib.json_dumps (PyValue.str "1") = some dumped) (hfault : call.env.fault ≠ .after)
    (hconcerns : call.Concerns ips address)
    (htext : ∀ entry, self.client (self.build_data_key (Control.block.key ips address)) = some entry →
      entry.value = .text (JSON_PREFIX ++ dumped))
    {reply : Reply V} (hreturns : (self.control ips lib call).1 = .ok reply) :
    Follows (Control.block.key ips address) (JSON_PREFIX ++ dumped) call self (self.control ips lib call).2 := by
  obtain ⟨ip, haddress, ⟨duration, hblock⟩ | hunblock | hlookup⟩ := hconcerns
  · exact block_ip_follows hmode hdumped hfault hblock haddress hreturns
  · exact unblock_ip_follows hmode hfault hunblock haddress
  · exact (is_blocked_served hmode hdumped hfault hlookup haddress htext).1

/-- Each store holds the block that the calls it served leave standing. -/
structure Tracks (key marked : String) (calls : List ControlCall) (state : RedisStorage V) : Prop where
  control_failure_mode : state.control_failure_mode = .local_memory_fallback
  text : ∀ entry, state.client (state.build_data_key key) = some entry → entry.value = .text marked
  on_server : ∀ now, (∀ call ∈ calls, call.clock .server ≤ now) →
    lasting now (state.client (state.build_data_key key)) =
      (lasting now (standing ControlCall.change calls .server)).map (as_value (.text marked))
  on_fallback : ∀ now, (∀ call ∈ calls, call.clock .fallback ≤ now) →
    state.control_fallback.visible now key =
      (live now (standing ControlCall.change calls .fallback)).map (as_value (PyValue.str "1"))

theorem Tracks.concat {calls : List ControlCall} (h : Tracks key marked calls self)
    (hclock : ∀ earlier ∈ calls, ∀ store, earlier.clock store ≤ call.clock store)
    (hfollows : Follows key marked call self next) : Tracks key marked (calls ++ [call]) next := by
  have hkey : next.build_data_key key = self.build_data_key key := by
    rw [build_data_key, build_data_key, hfollows.key_prefix]
  refine ⟨hfollows.control_failure_mode.trans h.control_failure_mode, ?_, ?_, ?_⟩
  · rw [hkey]
    exact hfollows.text h.text
  · intro now hnow
    have hle : call.clock .server ≤ now := hnow call (by simp)
    rw [hkey, standing_concat]
    apply hfollows.on_server h.text now _ hle
    apply h.on_server
    exact fun earlier hearlier => (hclock earlier hearlier .server).trans hle
  · intro now hnow
    rw [standing_concat]
    apply hfollows.on_fallback now _ (hnow call (by simp))
    apply h.on_fallback
    exact fun earlier hearlier => hclock earlier hearlier .fallback

variable {calls : List ControlCall}

/-- The run lemma. -/
theorem settle_control_tracks (hinit : Tracks (Control.block.key ips address) (JSON_PREFIX ++ dumped) [] self)
    (hdumped : lib.json_dumps (PyValue.str "1") = some dumped)
    (hfaults : ∀ call ∈ calls, call.env.fault ≠ .after) (hconcerns : ∀ call ∈ calls, call.Concerns ips address)
    (hclock : ∀ store, calls.Pairwise (fun first second => first.clock store ≤ second.clock store))
    (hreturns : ∀ result ∈ outputs (control ips lib) self calls, ∃ reply, result = .ok reply) :
    Tracks (Control.block.key ips address) (JSON_PREFIX ++ dumped) calls (settle (control ips lib) self calls) := by
  induction calls using List.reverseRecOn with
  | nil => exact hinit
  | append_singleton before call ih =>
    rw [outputs_concat] at hreturns
    have hbefore := ih (fun other hother => hfaults other (List.mem_append_left _ hother))
      (fun other hother => hconcerns other (List.mem_append_left _ hother))
      (fun store => (List.pairwise_append.mp (hclock store)).1)
      (fun result hresult => hreturns result (List.mem_append_left _ hresult))
    obtain ⟨reply, hreply⟩ := hreturns _ (List.mem_append_right _ (List.mem_singleton.mpr rfl))
    rw [settle_concat]
    apply hbefore.concat
    · intro earlier hearlier store
      exact (List.pairwise_append.mp (hclock store)).2.2 earlier hearlier call (by simp)
    · exact control_follows hbefore.control_failure_mode hdumped (hfaults call (by simp)) (hconcerns call (by simp))
        hbefore.text hreply

end Calls

end RedisStorage

namespace ControlCall

/-- The last of the blocks and unblocks that count is a block whose duration, if
    any, has not elapsed on a store's clock. -/
def LastBlock (store : Serving) (counts : ControlCall → Prop) (now : ℚ) (calls : List ControlCall) : Prop :=
  ∃ earlier call later ip duration, calls = earlier ++ call :: later ∧ counts call ∧
    call.operation = .block_ip ip duration ∧
    (∀ seconds ∈ duration, store.Within now (call.clock store + (seconds : ℤ))) ∧
    ∀ other ∈ later, counts other →
      (∀ ip duration, other.operation ≠ .block_ip ip duration) ∧ ∀ ip, other.operation ≠ .unblock_ip ip

variable {call : ControlCall} {store : Serving}

theorem change_eq_entry_iff {entry : Timed Unit ℚ} :
    call.change = some (store, some entry) ↔ call.serving = store ∧ ∃ ip duration,
      call.operation = .block_ip ip duration ∧ entry = ⟨(), InMemoryStorage.expiry (call.clock store) duration⟩ := by
  unfold change
  cases hoperation : call.operation with
  | block_ip ip duration =>
    simp only [Option.some.injEq, Prod.mk.injEq, IpOperation.block_ip.injEq]
    constructor
    · rintro ⟨hserving, hentry⟩
      exact ⟨hserving, ip, duration, ⟨rfl, rfl⟩, hserving ▸ hentry.symm⟩
    · rintro ⟨hserving, _, _, ⟨rfl, rfl⟩, hentry⟩
      exact ⟨hserving, hserving ▸ hentry.symm⟩
  | _ => simp

theorem change_ne_iff : (∀ target ∈ call.change, target.1 ≠ store) ↔
    (call.serving = store →
      (∀ ip duration, call.operation ≠ .block_ip ip duration) ∧ ∀ ip, call.operation ≠ .unblock_ip ip) := by
  unfold change
  cases hoperation : call.operation <;> simp

theorem lastBlock_iff {now : ℚ} {calls : List ControlCall} :
    LastBlock store (·.serving = store) now calls ↔
      ((standing change calls store).filter (store.reads now)).isSome := by
  rw [filter_standing_isSome_iff]
  constructor
  · rintro ⟨earlier, call, later, ip, duration, hcalls, hserving, hblock, hduration, hlater⟩
    refine ⟨earlier, call, later, _, hcalls, change_eq_entry_iff.mpr ⟨hserving, ip, duration, hblock, rfl⟩, ?_,
      fun other hother => change_ne_iff.mpr (hlater other hother)⟩
    exact Serving.reads_expiry_iff.mpr hduration
  · rintro ⟨earlier, call, later, entry, hcalls, hchange, halive, hlater⟩
    obtain ⟨hserving, ip, duration, hblock, rfl⟩ := change_eq_entry_iff.mp hchange
    exact ⟨earlier, call, later, ip, duration, hcalls, hserving, hblock,
      Serving.reads_expiry_iff.mp halive, fun other hother => change_ne_iff.mp (hlater other hother)⟩

end ControlCall

namespace RedisStorage

variable {V Address : Type} [PyValue V]

/-- Neither store has a block of an address. -/
def Unblocked (ips : IpLibrary Address) (address : Address) (self : RedisStorage V) : Prop :=
  self.client (self.build_data_key (Control.block.key ips address)) = none ∧
    ∀ now, self.control_fallback.visible now (Control.block.key ips address) = none

/-- The blocks of an address are those of the store that is asked. In every run
    of calls on one address that return, whichever of them the client raises
    on, a lookup answers whether the last earlier block or unblock that the same
    store served is a block that has not run out. Neither store hears of the
    calls that the other one served. -/
theorem serving_store_honours_block (ips : IpLibrary Address) (lib : Libraries V) {dumped : String}
    (hdumped : lib.json_dumps (PyValue.str "1") = some dumped) {self : RedisStorage V}
    (hmode : self.control_failure_mode = .local_memory_fallback) {address : Address}
    (hunblocked : self.Unblocked ips address) {calls : List ControlCall}
    (hfaults : ∀ call ∈ calls, call.env.fault ≠ .after) (hconcerns : ∀ call ∈ calls, call.Concerns ips address)
    (hclock : ∀ store, calls.Pairwise (fun first second => first.clock store ≤ second.clock store))
    (hreturns : ∀ result ∈ outputs (control ips lib) self calls, ∃ reply, result = .ok reply) :
    ∀ before call rest ip, calls = before ++ call :: rest → call.operation = .is_blocked ip →
      ∃ blocked, (outputs (control ips lib) self calls)[before.length]? = some (.ok (.answer blocked)) ∧
        (blocked = true ↔ ControlCall.LastBlock call.serving (fun other => other.serving = call.serving)
          (call.clock call.serving) before) := by
  rintro before call rest ip rfl hlookup
  have hinit : Tracks (Control.block.key ips address) (JSON_PREFIX ++ dumped) [] self := by
    obtain ⟨hserver, hfallback⟩ := hunblocked
    refine ⟨hmode, ?_, fun now _ => ?_, fun now _ => ?_⟩
    · simp [hserver]
    · rw [hserver]
      rfl
    · rw [hfallback]
      rfl
  have htracks := settle_control_tracks hinit hdumped
    (fun other hother => hfaults other (List.mem_append_left _ hother))
    (fun other hother => hconcerns other (List.mem_append_left _ hother))
    (fun store => (List.pairwise_append.mp (hclock store)).1)
    (fun result hresult => hreturns result (by rw [outputs_append]; exact List.mem_append_left _ hresult))
  have hlast : ∀ store, ∀ earlier ∈ before, earlier.clock store ≤ call.clock store := fun store earlier hearlier =>
    (List.pairwise_append.mp (hclock store)).2.2 earlier hearlier call (by simp)
  obtain ⟨written, haddress, hoperation⟩ := hconcerns call (by simp)
  have hsame : call.operation = .is_blocked written := by
    rcases hoperation with ⟨_, hblock⟩ | hunblock | hsame
    · simp [hblock] at hlookup
    · simp [hunblock] at hlookup
    · exact hsame
  have hanswer := (is_blocked_served htracks.control_failure_mode hdumped (hfaults call (by simp)) hsame haddress
    htracks.text).2 (standing ControlCall.change before) (htracks.on_server _ (hlast .server))
    (htracks.on_fallback _ (hlast .fallback))
  refine ⟨_, ?_, ControlCall.lastBlock_iff.symm⟩
  rw [outputs_getElem?, hanswer]

/-- A call when all clocks have one reading. -/
def call_at (now : ℚ) (fault : Fault) (operation : IpOperation) : ControlCall :=
  ⟨{ Environment.healthy now "" with fault }, operation⟩

/-- A storage in fallback mode around an empty server. -/
def falling_back : RedisStorage PlainValue := { default with control_failure_mode := .local_memory_fallback }

theorem falling_back_unblocked (address : DocumentationAddress) :
    falling_back.Unblocked IpLibrary.documentation address := ⟨rfl, fun _ => rfl⟩

/-- A block on the server, another one in the fallback and its end, and a lookup
    in each. -/
def split_block : List ControlCall :=
  [call_at 0 .none (.block_ip "192.0.2.1" none), call_at 1 .before (.block_ip "192.0.2.1" (some 60)),
    call_at 2 .before (.unblock_ip "192.0.2.1"), call_at 3 .before (.is_blocked "192.0.2.1"),
    call_at 4 .none (.is_blocked "192.0.2.1")]

theorem split_block_concerns : ∀ call ∈ split_block, call.Concerns IpLibrary.documentation .v4 := by
  intro call hcall
  refine ⟨"192.0.2.1", by decide, ?_⟩
  simp only [split_block, List.mem_cons, List.not_mem_nil, or_false] at hcall
  rcases hcall with rfl | rfl | rfl | rfl | rfl
  · exact Or.inl ⟨none, rfl⟩
  · exact Or.inl ⟨some 60, rfl⟩
  · exact Or.inr (Or.inl rfl)
  · exact Or.inr (Or.inr rfl)
  · exact Or.inr (Or.inr rfl)

theorem split_block_returns :
    outputs (control IpLibrary.documentation Libraries.plain) falling_back split_block =
      [.ok .done, .ok .done, .ok .done, .ok (.answer false), .ok (.answer true)] := rfl

theorem split_block_honoured :
    ∃ blocked, (outputs (control IpLibrary.documentation Libraries.plain) falling_back split_block)[4]? =
        some (.ok (.answer blocked)) ∧
      (blocked = true ↔ ControlCall.LastBlock .server (fun other => other.serving = .server) 4
        (split_block.take 4)) := by
  refine serving_store_honours_block IpLibrary.documentation Libraries.plain rfl rfl
    (falling_back_unblocked .v4) ?_ split_block_concerns ?_ ?_ (split_block.take 4)
    (call_at 4 .none (.is_blocked "192.0.2.1")) [] "192.0.2.1" rfl rfl
  · decide
  · intro store
    cases store <;> decide
  · rw [split_block_returns]
    simp

/-- A block on the server, and a lookup that the server does not answer. -/
def forgotten_block : List ControlCall :=
  [call_at 0 .none (.block_ip "192.0.2.1" none), call_at 1 .before (.is_blocked "192.0.2.1")]

/-- The fallback does not know of a block that the server took. -/
theorem forgotten_block_dishonoured :
    ¬ ∀ (self : RedisStorage PlainValue) (calls : List ControlCall),
      self.control_failure_mode = .local_memory_fallback → self.Unblocked IpLibrary.documentation .v4 →
      (∀ call ∈ calls, call.env.fault ≠ .after) → (∀ call ∈ calls, call.Concerns IpLibrary.documentation .v4) →
      (∀ call ∈ calls, call.clock .server = call.clock .fallback) →
      (calls.Pairwise (fun first second => first.clock .server ≤ second.clock .server)) →
      (∀ result ∈ outputs (control IpLibrary.documentation Libraries.plain) self calls,
        ∃ reply, result = .ok reply) →
      ∀ before call rest ip, calls = before ++ call :: rest → call.operation = .is_blocked ip →
        ∃ blocked, (outputs (control IpLibrary.documentation Libraries.plain) self calls)[before.length]? =
            some (.ok (.answer blocked)) ∧
          (blocked = true ↔ ControlCall.LastBlock .server (fun _ => True) (call.clock .server) before) := by
  intro hclaim
  have hreturns : outputs (control IpLibrary.documentation Libraries.plain) falling_back forgotten_block =
      [.ok .done, .ok (.answer false)] := rfl
  have hconcerns : ∀ call ∈ forgotten_block, call.Concerns IpLibrary.documentation .v4 := by
    intro call hcall
    refine ⟨"192.0.2.1", by decide, ?_⟩
    simp only [forgotten_block, List.mem_cons, List.not_mem_nil, or_false] at hcall
    rcases hcall with rfl | rfl
    · exact Or.inl ⟨none, rfl⟩
    · exact Or.inr (Or.inr rfl)
  obtain ⟨blocked, hanswer, hexact⟩ :=
    hclaim falling_back forgotten_block rfl (falling_back_unblocked .v4) (by decide)
    hconcerns (by decide) (by decide) (by rw [hreturns]; simp)
    [call_at 0 .none (.block_ip "192.0.2.1" none)]
    (call_at 1 .before (.is_blocked "192.0.2.1")) [] "192.0.2.1" rfl rfl
  have hlast : ControlCall.LastBlock .server (fun _ => True)
      ((call_at 1 .before (.is_blocked "192.0.2.1")).clock .server)
      [call_at 0 .none (.block_ip "192.0.2.1" none)] :=
    ⟨[], call_at 0 .none (.block_ip "192.0.2.1" none), [], "192.0.2.1", none, rfl, trivial, rfl, by simp, by simp⟩
  rw [hreturns] at hanswer
  rw [hexact.mpr hlast] at hanswer
  cases hanswer

end RedisStorage

end response_bandwidth_limiter.redis

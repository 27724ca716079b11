import ResponseBandwidthLimiter.Backends.Memory.Operations
import ResponseBandwidthLimiter.Collections.Runs
import ResponseBandwidthLimiter.IpManager

open collections
open response_bandwidth_limiter.base response_bandwidth_limiter.ip_manager

namespace response_bandwidth_limiter.memory

inductive Event (V : Type) where
  | ip (operation : IpOperation)
  | storage (operation : Operation V)

/-- A call and the clock reading it is made at. -/
structure Call (V : Type) where
  now : ℚ
  event : Event V

/-- A call on the storage itself names no control key. -/
def Call.SparesControls {V : Type} (self : Call V) : Prop :=
  ∀ operation, self.event = .storage operation → ∀ key ∈ operation.key, ¬ InMemoryStorage.is_control_key key

/-- A call and what it answered or raised. -/
structure Outcome (V : Type) where
  call : Call V
  result : Except PyError (Reply V)

variable {Address V : Type} [PyValue V]

namespace InMemoryStorage

/-- The storage at a clock reading, as the IP manager uses it. -/
def at_time (now : ℚ) : Storage (InMemoryStorage V) V where
  get self key := (.ok (self.get now key).1, (self.get now key).2)
  set self key value expire := self.set now key value expire
  delete self key := (.ok (), self.delete key)

section Runs

variable (lib : IpLibrary Address)

def perform (self : InMemoryStorage V) (call : Call V) : Except PyError (Reply V) × InMemoryStorage V :=
  match call.event with
  | .ip operation => manage lib (at_time call.now) self operation
  | .storage operation => self.operate call.now operation

/-- One call of a run, with its outcome. -/
def advance (self : InMemoryStorage V) (call : Call V) : Outcome V × InMemoryStorage V :=
  (⟨call, (self.perform lib call).1⟩, (self.perform lib call).2)

/-- The outcomes of a sequence of calls. -/
def run (self : InMemoryStorage V) (calls : List (Call V)) : List (Outcome V) := outputs (advance lib) self calls

end Runs

end InMemoryStorage

section Changes

variable (lib : IpLibrary Address)

/-- The change a completed call makes to the control entries. -/
def control_change (now : ℚ) (self : IpOperation) : Option (Change String V ℚ) :=
  match self.sets, self.clears with
  | some (control, ip, duration), _ =>
    (lib.ip_address ip).map (fun address =>
      (control.key lib address, some ⟨PyValue.str "1", InMemoryStorage.expiry now duration⟩))
  | none, some (control, ip) =>
    (lib.ip_address ip).map (fun address => (control.key lib address, none))
  | none, none => none

/-- Calls that raised, and calls on the storage itself, change no control
    entry. -/
def Outcome.change (self : Outcome V) : Option (Change String V ℚ) :=
  match self.call.event, self.result with
  | .ip operation, .ok _ => control_change lib self.call.now operation
  | _, _ => none

end Changes

namespace InMemoryStorage

variable {lib : IpLibrary Address}

section Manage

variable (self : InMemoryStorage V) (now : ℚ) {operation : IpOperation} {key : String}
  {control : Control} {ip : String}

theorem visible_manage_of_sets (hcontrol : is_control_key key) {duration : Option ℤ}
    (hsets : operation.sets = some (control, ip, duration)) :
    (manage lib (at_time now) self operation).2.visible now key =
      changed (Outcome.change lib) key (self.visible now key)
        ⟨⟨now, .ip operation⟩, (manage lib (at_time now) self operation).1⟩ := by
  rw [manage_of_sets hsets]
  cases haddress : lib.ip_address ip with
  | none => simp [put_control, normalize_ip, haddress, changed, Outcome.change, Except.map]
  | some address =>
    have hset := visible_set self now (control.key lib address) (PyValue.str "1") duration hcontrol
    have hput : put_control lib (at_time now) control.beginning self ip duration =
        self.set now (control.key lib address) (PyValue.str "1") duration := by
      rw [put_control, normalize_ip_of_address haddress]
      rfl
    rw [hput, hset]
    cases hresult : (self.set now (control.key lib address) (PyValue.str "1") duration).1 with
    | error e => simp [changed, Outcome.change, Except.map]
    | ok _ =>
      simp only [changed, Outcome.change, Except.map, control_change, hsets, haddress, Option.map_some,
        and_true, eq_comm]

theorem visible_manage_of_clears (hsets : operation.sets = none)
    (hclears : operation.clears = some (control, ip)) :
    (manage lib (at_time now) self operation).2.visible now key =
      changed (Outcome.change lib) key (self.visible now key)
        ⟨⟨now, .ip operation⟩, (manage lib (at_time now) self operation).1⟩ := by
  rw [manage_of_clears hclears]
  cases haddress : lib.ip_address ip with
  | none => simp [drop_control, normalize_ip, haddress, changed, Outcome.change, Except.map]
  | some address =>
    have hdrop : drop_control lib (at_time now) control.beginning self ip =
        (.ok (), self.delete (control.key lib address)) := by
      rw [drop_control, normalize_ip_of_address haddress]
      rfl
    rw [hdrop, visible_delete]
    simp only [changed, Outcome.change, Except.map, control_change, hsets, hclears, haddress,
      Option.map_some, eq_comm]

theorem visible_manage_of_asks (hsets : operation.sets = none) (hclears : operation.clears = none)
    (hasks : operation.asks = some (control, ip)) :
    (manage lib (at_time now) self operation).2.visible now key =
      changed (Outcome.change lib) key (self.visible now key)
        ⟨⟨now, .ip operation⟩, (manage lib (at_time now) self operation).1⟩ := by
  rw [manage_of_asks hasks]
  have hchange : ∀ result, changed (Outcome.change lib) key (self.visible now key)
      ⟨⟨now, .ip operation⟩, result⟩ = self.visible now key := by
    intro result
    cases result <;> simp [changed, Outcome.change, control_change, hsets, hclears]
  rw [hchange]
  cases haddress : lib.ip_address ip with
  | none => simp [has_control, normalize_ip, haddress]
  | some address =>
    rw [has_control, normalize_ip_of_address haddress]
    exact visible_get self now (control.key lib address) key

end Manage

/-- An IP call changes what is visible at a control key by its change alone,
    and not at all when it raises. -/
theorem visible_manage (self : InMemoryStorage V) (now : ℚ) (operation : IpOperation) {key : String}
    (hcontrol : is_control_key key) :
    (manage lib (at_time now) self operation).2.visible now key =
      changed (Outcome.change lib) key (self.visible now key)
        ⟨⟨now, .ip operation⟩, (manage lib (at_time now) self operation).1⟩ := by
  rcases operation.sets_or_clears_or_asks with ⟨control, ip, duration, hsets⟩ |
    ⟨hsets, control, ip, hclears⟩ | ⟨hsets, hclears, control, ip, hasks⟩
  · exact visible_manage_of_sets self now hcontrol hsets
  · exact visible_manage_of_clears self now hsets hclears
  · exact visible_manage_of_asks self now hsets hclears hasks

theorem visible_perform (self : InMemoryStorage V) {call : Call V} (hspares : call.SparesControls)
    {key : String} (hcontrol : is_control_key key) :
    (self.perform lib call).2.visible call.now key =
      changed (Outcome.change lib) key (self.visible call.now key) ⟨call, (self.perform lib call).1⟩ := by
  obtain ⟨now, event⟩ := call
  cases event with
  | ip operation => exact visible_manage self now operation hcontrol
  | storage operation =>
    refine (visible_operate self now hcontrol ?_).trans rfl
    exact fun named hnamed heq => hspares operation rfl named hnamed (heq ▸ hcontrol)

/-- The run lemma: from an empty storage, what is visible at a control key is
    what the changes so far leave standing and time has not ended. -/
theorem visible_settle (lib : IpLibrary Address) (max_keys max_counters : ℕ+) {calls : List (Call V)}
    (hmono : calls.Pairwise (fun first second => first.now ≤ second.now))
    (hspares : ∀ call ∈ calls, call.SparesControls) {now : ℚ} (hnow : ∀ call ∈ calls, call.now ≤ now)
    {key : String} (hcontrol : is_control_key key) :
    (settle (advance lib) (fresh max_keys max_counters) calls).visible now key =
      live now (standing (Outcome.change lib) ((fresh max_keys max_counters).run lib calls) key) := by
  induction calls using List.reverseRecOn generalizing now with
  | nil => rfl
  | append_singleton before call ih =>
    obtain ⟨hbefore, _, hlast⟩ := List.pairwise_append.mp hmono
    have hle : call.now ≤ now := hnow call (by simp)
    have hvisible := ih hbefore (fun other hother => hspares other (List.mem_append_left _ hother))
      (fun other hother => hlast other hother call (by simp))
    rw [run, settle_concat, outputs_concat, standing_concat, visible_advance _ hle]
    simp only [advance]
    rw [visible_perform _ (hspares call (by simp)) hcontrol, hvisible, live_changed hle, run]

end InMemoryStorage

section History

variable (lib : IpLibrary Address) (control : Control) (address : Address)

/-- A completed call that set a control of an address for a duration. -/
def Outcome.Sets (duration : Option ℤ) (self : Outcome V) : Prop :=
  ∃ operation ip reply, self.call.event = .ip operation ∧ self.result = .ok reply ∧
    operation.sets = some (control, ip, duration) ∧ lib.ip_address ip = some address

/-- A completed call that cleared a control of an address. -/
def Outcome.Clears (self : Outcome V) : Prop :=
  ∃ operation ip reply, self.call.event = .ip operation ∧ self.result = .ok reply ∧
    operation.clears = some (control, ip) ∧ lib.ip_address ip = some address

/-- The last completed call that set or cleared a control of an address set it,
    for a duration that has not elapsed. -/
def LastSet (now : ℚ) (outcomes : List (Outcome V)) : Prop :=
  ∃ before outcome after duration, outcomes = before ++ outcome :: after ∧
    outcome.Sets lib control address duration ∧
    (∀ seconds ∈ duration, now < outcome.call.now + (seconds : ℤ)) ∧
    ∀ other ∈ after, ¬ (∃ duration, other.Sets lib control address duration) ∧ ¬ other.Clears lib control address

end History

section Standing

variable {lib : IpLibrary Address} {control : Control} {address : Address}

theorem control_change_of_sets {operation : IpOperation} {ip : String} {duration : Option ℤ}
    (hsets : operation.sets = some (control, ip, duration)) (now : ℚ) :
    (control_change lib now operation : Option (Change String V ℚ)) =
      (lib.ip_address ip).map (fun address =>
        (control.key lib address, some ⟨PyValue.str "1", InMemoryStorage.expiry now duration⟩)) := by
  simp [control_change, hsets]

theorem control_change_of_clears {operation : IpOperation} {ip : String}
    (hclears : operation.clears = some (control, ip)) (now : ℚ) :
    (control_change lib now operation : Option (Change String V ℚ)) =
      (lib.ip_address ip).map (fun address => (control.key lib address, none)) := by
  cases operation <;> cases hclears <;> rfl

theorem Outcome.change_eq_some_iff {self : Outcome V} {target : Change String V ℚ} :
    self.change lib = some target ↔
      ∃ operation reply, self.call.event = .ip operation ∧ self.result = .ok reply ∧
        control_change lib self.call.now operation = some target := by
  obtain ⟨⟨now, event⟩, result⟩ := self
  cases event with
  | storage operation => simp [Outcome.change]
  | ip operation => cases result <;> simp [Outcome.change]

/-- An outcome assigns an entry to a control's key exactly when it set it. -/
theorem Outcome.change_eq_entry_iff {self : Outcome V} {entry : Timed V ℚ} :
    self.change lib = some (control.key lib address, some entry) ↔
      ∃ duration, self.Sets lib control address duration ∧
        entry = ⟨PyValue.str "1", InMemoryStorage.expiry self.call.now duration⟩ := by
  rw [Outcome.change_eq_some_iff]
  constructor
  · rintro ⟨operation, reply, hevent, hresult, hchange⟩
    rcases operation.sets_or_clears_or_asks with ⟨found, ip, duration, hsets⟩ |
      ⟨_, found, ip, hclears⟩ | ⟨hsets, hclears, _⟩
    · rw [control_change_of_sets hsets, Option.map_eq_some_iff] at hchange
      obtain ⟨source, hsource, hentry⟩ := hchange
      obtain ⟨hkey, hassigned⟩ := Prod.mk.inj hentry
      obtain ⟨rfl, rfl⟩ := Control.key_injective hkey
      exact ⟨duration, ⟨operation, ip, reply, hevent, hresult, hsets, hsource⟩, (Option.some.inj hassigned).symm⟩
    · rw [control_change_of_clears hclears, Option.map_eq_some_iff] at hchange
      obtain ⟨source, _, hentry⟩ := hchange
      cases (Prod.mk.inj hentry).2
    · simp [control_change, hsets, hclears] at hchange
  · rintro ⟨duration, ⟨operation, ip, reply, hevent, hresult, hsets, hsource⟩, rfl⟩
    exact ⟨operation, reply, hevent, hresult, by rw [control_change_of_sets hsets, hsource]; rfl⟩

/-- An outcome leaves a control's key alone exactly when it neither set nor
    cleared it. -/
theorem Outcome.change_ne_iff {self : Outcome V} :
    (∀ target ∈ self.change lib, target.1 ≠ control.key lib address) ↔
      ¬ (∃ duration, self.Sets lib control address duration) ∧ ¬ self.Clears lib control address := by
  constructor
  · intro hne
    constructor
    · rintro ⟨duration, hsets⟩
      exact hne _ (Outcome.change_eq_entry_iff.mpr ⟨duration, hsets, rfl⟩) rfl
    · rintro ⟨operation, ip, reply, hevent, hresult, hclears, hsource⟩
      refine hne (control.key lib address, none) (Outcome.change_eq_some_iff.mpr ?_) rfl
      exact ⟨operation, reply, hevent, hresult, by rw [control_change_of_clears hclears, hsource]; rfl⟩
  · rintro ⟨hsets, hclears⟩ ⟨key, assigned⟩ hchange rfl
    cases assigned with
    | some entry =>
      obtain ⟨duration, hset, _⟩ := Outcome.change_eq_entry_iff.mp hchange
      exact hsets ⟨duration, hset⟩
    | none =>
      obtain ⟨operation, reply, hevent, hresult, hchange⟩ := Outcome.change_eq_some_iff.mp hchange
      rcases operation.sets_or_clears_or_asks with ⟨found, ip, duration, hset⟩ |
        ⟨_, found, ip, hclear⟩ | ⟨hset, hclear, _⟩
      · rw [control_change_of_sets hset, Option.map_eq_some_iff] at hchange
        obtain ⟨source, _, hentry⟩ := hchange
        cases (Prod.mk.inj hentry).2
      · rw [control_change_of_clears hclear, Option.map_eq_some_iff] at hchange
        obtain ⟨source, hsource, hentry⟩ := hchange
        obtain ⟨rfl, rfl⟩ := Control.key_injective (Prod.mk.inj hentry).1
        exact hclears ⟨operation, ip, reply, hevent, hresult, hclear, hsource⟩
      · simp [control_change, hset, hclear] at hchange

theorem lastSet_iff {now : ℚ} {outcomes : List (Outcome V)} :
    LastSet lib control address now outcomes ↔
      (live now (standing (Outcome.change lib) outcomes (control.key lib address))).isSome := by
  rw [live_standing_isSome_iff]
  constructor
  · rintro ⟨before, outcome, after, duration, hlog, hsets, hduration, hafter⟩
    refine ⟨before, outcome, after, _, hlog, Outcome.change_eq_entry_iff.mpr ⟨duration, hsets, rfl⟩, ?_,
      fun other hother => Outcome.change_ne_iff.mpr (hafter other hother)⟩
    exact (InMemoryStorage.alive_expiry_iff _).mpr hduration
  · rintro ⟨before, outcome, after, entry, hlog, hchange, halive, hafter⟩
    obtain ⟨duration, hsets, rfl⟩ := Outcome.change_eq_entry_iff.mp hchange
    exact ⟨before, outcome, after, duration, hlog, hsets, (InMemoryStorage.alive_expiry_iff _).mp halive,
      fun other hother => Outcome.change_ne_iff.mp (hafter other hother)⟩

end Standing

namespace InMemoryStorage

variable {lib : IpLibrary Address}

/-- A lookup answers whether the entry it reads is visible, given that entries
    hold what the manager writes. -/
theorem manage_asks_result (self : InMemoryStorage V) (now : ℚ) {operation : IpOperation} {control : Control}
    {ip : String} {address : Address} (hasks : operation.asks = some (control, ip))
    (haddress : lib.ip_address ip = some address)
    (hvalue : ∀ entry ∈ self.visible now (control.key lib address), entry.value = PyValue.str "1") :
    (manage lib (at_time now) self operation).1 =
      .ok (.answer (self.visible now (control.key lib address)).isSome) := by
  rw [manage_of_asks hasks, has_control, normalize_ip_of_address haddress]
  change Except.map Reply.answer (.ok (!PyValue.is_none (self.get now (control.key lib address)).1)) = _
  rw [get_result]
  cases hvisible : self.visible now (control.key lib address) with
  | none => simp [Except.map, PyValue.is_none_none]
  | some entry => simp [Except.map, hvalue entry hvisible, PyValue.is_none_str]

/-- Every lookup in a run answers whether the last completed change of the
    control on an equal address set it for a duration that has not elapsed. -/
theorem asks_exact (max_keys max_counters : ℕ+) {before rest : List (Call V)} {call : Call V}
    (hmono : (before ++ call :: rest).Pairwise (fun first second => first.now ≤ second.now))
    (hspares : ∀ other ∈ before ++ call :: rest, other.SparesControls)
    {operation : IpOperation} {control : Control} {ip : String} {address : Address}
    (hevent : call.event = .ip operation) (hasks : operation.asks = some (control, ip))
    (haddress : lib.ip_address ip = some address) :
    ∃ holds, ((fresh max_keys max_counters).run lib (before ++ call :: rest))[before.length]? =
        some ⟨call, .ok (.answer holds)⟩ ∧
      (holds = true ↔
        LastSet lib control address call.now ((fresh max_keys max_counters).run lib before)) := by
  obtain ⟨hbefore, _, hlast⟩ := List.pairwise_append.mp hmono
  have hvisible := visible_settle lib max_keys max_counters hbefore
    (fun other hother => hspares other (List.mem_append_left _ hother))
    (fun other hother => hlast other hother call (by simp))
    (Control.key_starts_with lib control address)
  refine ⟨((settle (advance lib) (fresh max_keys max_counters) before).visible call.now
    (control.key lib address)).isSome, ?_, ?_⟩
  · rw [run, outputs_getElem?]
    simp only [advance, perform, hevent]
    rw [manage_asks_result _ _ hasks haddress]
    intro entry hentry
    rw [hvisible, Option.mem_def, live_eq_some_iff, standing_eq_some_iff] at hentry
    obtain ⟨⟨_, outcome, _, _, hchange, _⟩, _⟩ := hentry
    obtain ⟨duration, _, rfl⟩ := Outcome.change_eq_entry_iff.mp hchange
    rfl
  · rw [hvisible, lastSet_iff]

/-- A block for a minute under another spelling, a value that finds the
    storage full of controls, and a lookup before the minute is over. -/
def blocked_spelling : List (Call PlainValue) :=
  [⟨0, .ip (.block_ip "2001:DB8::0:1" (some 60))⟩, ⟨1, .storage (.set "session" (.int 7) none)⟩,
    ⟨59, .ip (.is_blocked "2001:db8::1")⟩]

end InMemoryStorage

end response_bandwidth_limiter.memory

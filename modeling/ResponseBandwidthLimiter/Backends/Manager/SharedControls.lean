import ResponseBandwidthLimiter.Backends.Manager.Shared

open collections
open response_bandwidth_limiter.base response_bandwidth_limiter.models response_bandwidth_limiter.ip_manager

namespace response_bandwidth_limiter.ip_manager.IpOperation

variable {Address V : Type} [PyValue V] {lib : IpLibrary Address} {self : IpOperation} {control : Control}
  {ip : String}
  {address : Address}

theorem value_operation_of_sets {duration : Option ℤ} (hsets : self.sets = some (control, ip, duration))
    (haddress : lib.ip_address ip = some address) :
    self.value_operation lib = .ok (.set (control.key lib address) (PyValue.str (V := V) "1") duration) := by
  cases self <;> cases hsets <;>
    exact congrArg (Except.map _) (normalize_ip_of_address haddress)

theorem value_operation_of_clears (hclears : self.clears = some (control, ip))
    (haddress : lib.ip_address ip = some address) :
    self.value_operation lib = .ok (.delete (V := V) (control.key lib address)) := by
  cases self <;> cases hclears <;>
    exact congrArg (Except.map _) (normalize_ip_of_address haddress)

theorem value_operation_of_asks (hasks : self.asks = some (control, ip))
    (haddress : lib.ip_address ip = some address) :
    self.value_operation lib = .ok (.get (V := V) (control.key lib address)) := by
  cases self <;> cases hasks <;>
    exact congrArg (Except.map _) (normalize_ip_of_address haddress)

/-- A text that is no address is refused. -/
theorem value_operation_of_no_address (hnone : lib.ip_address ip = none)
    (hip : (∃ control duration, self.sets = some (control, ip, duration)) ∨
      (∃ control, self.clears = some (control, ip)) ∨ ∃ control, self.asks = some (control, ip)) :
    ∃ error, self.value_operation (V := V) lib = .error error := by
  have hraises : normalize_ip lib ip = .error (.value_error "ip must be a valid IP address.") := by
    rw [normalize_ip, hnone]
  refine ⟨.value_error "ip must be a valid IP address.", ?_⟩
  rcases hip with ⟨control, duration, hsets⟩ | ⟨control, hclears⟩ | ⟨control, hasks⟩
  · cases self <;> cases hsets <;> exact congrArg (Except.map _) hraises
  · cases self <;> cases hclears <;> exact congrArg (Except.map _) hraises
  · cases self <;> cases hasks <;> exact congrArg (Except.map _) hraises

end response_bandwidth_limiter.ip_manager.IpOperation

namespace response_bandwidth_limiter.manager

variable {Address V : Type} [PyFloat V] {lib : IpLibrary Address}

/-- A call on the storage itself names neither a key of an expiry nor one of a
    control. -/
def SparesControls (event : memory.Event V) : Prop :=
  ∀ operation, event = .storage operation → ∀ key ∈ operation.key, plain key ∧ starts_with key "ip:" = false

omit [PyFloat V] in
theorem SparesControls.expiries {event : memory.Event V} (h : SparesControls event) : SparesExpiries event :=
  fun operation hevent key hkey => (h operation hevent key hkey).1

/-- A control's key is no key of a counter. -/
theorem counter_ne_control {key : String} (hcontrol : starts_with key "ip:" = true) :
    starts_with key (APPROX_COUNTER_PREFIX ++ ":") = false := by
  by_contra hcounter
  rw [Bool.not_eq_false] at hcounter
  have hcomparable := starts_with_comparable hcontrol hcounter
  revert hcomparable
  decide

namespace ManagerStorage

variable {self : ManagerStorage V} {time now : ℚ} {key : String}

/-- No call on the storage that spares the controls changes what shows there. -/
theorem Tidy.live_operate_control (h : self.Tidy) {operation : Operation V}
    (hspares : SparesControls (.storage operation)) (hcontrol : starts_with key "ip:" = true) (hkey : plain key) :
    live now ((self.operate time now operation).2.entry key) = live now (self.entry key) := by
  refine h.live_operate (fun named hnamed => (hspares operation rfl named hnamed).1) hkey ?_
  have hnamed : operation.key ≠ some key := by
    intro hnamed
    have hother := (hspares operation rfl key hnamed).2
    rw [hcontrol] at hother
    cases hother
  have hcounter := counter_ne_control hcontrol
  rw [Bool.eq_false_iff] at hcounter
  cases operation with
  | record_hit request_key handler_name rule_index window_seconds max_hits =>
    rintro rfl
    exact hcounter (counter_keys.starts_with_approx_counter_key _ _ _ _)
  | cleanup_handler_counters handler_name =>
    rintro (hkey | hcleaned)
    · cases hkey
    · exact hcounter (counter_keys.counter_of_beginning hcleaned)
  | cleanup_orphaned_counters active_rules =>
    rintro (hkey | hcleaned)
    · cases hkey
    · exact hcounter ((Bool.and_eq_true _ _).mp hcleaned).1
  | _ => exact fun htouches => htouches.elim hnamed Bool.false_ne_true

section Serve

variable {operation : IpOperation} {control : Control} {ip : String} {address : Address}

/-- A call that raises before it reaches the storage changes nothing. -/
theorem live_serve_of_error {error : PyError} (hvalue : operation.value_operation (V := V) lib = .error error) :
    live now ((self.serve lib time now (.ip operation)).2.entry key) =
      changed (memory.Outcome.change lib) key (live now (self.entry key))
        ⟨⟨now, .ip operation⟩, (self.serve lib time now (.ip operation)).1⟩ := by
  rw [self.serve_of_error hvalue]
  rfl

theorem Tidy.live_serve_of_sets (h : self.Tidy) (hkey : plain key) {duration : Option ℤ}
    (hsets : operation.sets = some (control, ip, duration)) (haddress : lib.ip_address ip = some address) :
    live now ((self.serve lib time now (.ip operation)).2.entry key) =
      changed (memory.Outcome.change lib) key (live now (self.entry key))
        ⟨⟨now, .ip operation⟩, (self.serve lib time now (.ip operation)).1⟩ := by
  rw [serve_of_value_operation self (operation.value_operation_of_sets hsets haddress)]
  obtain ⟨hreply, hentries, -⟩ := h.set time now (plain_control_key lib control address) (PyValue.str "1") duration
  simp only [hreply, hentries key hkey, Values.operate]
  cases hvalid : validate_expire duration with
  | error e => rfl
  | ok _ =>
    simp only [Except.map, changed, memory.Outcome.change, memory.control_change, hsets, haddress, Option.map_some]
    by_cases heq : control.key lib address = key
    · subst heq
      rw [Function.update_self, if_pos rfl]
      apply live_some_of_alive
      apply (memory.InMemoryStorage.alive_expiry_iff _).mpr
      intro seconds hseconds
      have hpos : (0 : ℚ) < seconds := by exact_mod_cast validate_expire_ok_iff.mp hvalid seconds hseconds
      exact lt_add_of_pos_right now hpos
    · rw [Function.update_of_ne (Ne.symm heq), if_neg heq]

theorem Tidy.live_serve_of_clears (h : self.Tidy) (hkey : plain key) (hsets : operation.sets = none)
    (hclears : operation.clears = some (control, ip)) (haddress : lib.ip_address ip = some address) :
    live now ((self.serve lib time now (.ip operation)).2.entry key) =
      changed (memory.Outcome.change lib) key (live now (self.entry key))
        ⟨⟨now, .ip operation⟩, (self.serve lib time now (.ip operation)).1⟩ := by
  rw [serve_of_value_operation self (operation.value_operation_of_clears hclears haddress)]
  have hdelete : self.Refines time now (.delete (control.key lib address)) :=
    h.operate time now rfl (plain_control_key lib control address)
  obtain ⟨-, hentries, -⟩ := hdelete
  rw [hentries key hkey]
  simp only [Values.operate, ManagerStorage.operate, Except.map, changed, memory.Outcome.change,
    memory.control_change, hsets, hclears, haddress, Option.map_some]
  by_cases heq : control.key lib address = key
  · subst heq
    rw [Function.update_self, if_pos rfl]
    rfl
  · rw [Function.update_of_ne (Ne.symm heq), if_neg heq]

theorem Tidy.live_serve_of_asks (h : self.Tidy) (hkey : plain key) (hsets : operation.sets = none)
    (hclears : operation.clears = none) (hasks : operation.asks = some (control, ip))
    (haddress : lib.ip_address ip = some address) :
    live now ((self.serve lib time now (.ip operation)).2.entry key) =
      changed (memory.Outcome.change lib) key (live now (self.entry key))
        ⟨⟨now, .ip operation⟩, (self.serve lib time now (.ip operation)).1⟩ := by
  rw [serve_of_value_operation self (operation.value_operation_of_asks hasks haddress)]
  obtain ⟨hreply, hentries, -⟩ := h.get time now (plain_control_key lib control address)
  rw [hentries key hkey, hreply]
  simp only [Values.operate, Except.map, changed, memory.Outcome.change, memory.control_change, hsets, hclears]

/-- A call changes what shows at a control's key by its change alone, and not at
    all when it raises. -/
theorem Tidy.live_serve (lib : IpLibrary Address) (h : self.Tidy) (time now : ℚ) {event : memory.Event V}
    (hspares : SparesControls event)
    (hcontrol : starts_with key "ip:" = true) (hkey : plain key) :
    live now ((self.serve lib time now event).2.entry key) =
      changed (memory.Outcome.change lib) key (live now (self.entry key))
        ⟨⟨now, event⟩, (self.serve lib time now event).1⟩ := by
  cases event with
  | storage operation => exact h.live_operate_control hspares hcontrol hkey
  | ip operation =>
    rcases operation.sets_or_clears_or_asks with ⟨control, ip, duration, hsets⟩ |
      ⟨hsets, control, ip, hclears⟩ | ⟨hsets, hclears, control, ip, hasks⟩
    · cases haddress : lib.ip_address ip with
      | some address => exact h.live_serve_of_sets hkey hsets haddress
      | none =>
        obtain ⟨error, hvalue⟩ := operation.value_operation_of_no_address (V := V) haddress (Or.inl ⟨_, _, hsets⟩)
        exact live_serve_of_error hvalue
    · cases haddress : lib.ip_address ip with
      | some address => exact h.live_serve_of_clears hkey hsets hclears haddress
      | none =>
        obtain ⟨error, hvalue⟩ :=
          operation.value_operation_of_no_address (V := V) haddress (Or.inr (Or.inl ⟨_, hclears⟩))
        exact live_serve_of_error hvalue
    · cases haddress : lib.ip_address ip with
      | some address => exact h.live_serve_of_asks hkey hsets hclears hasks haddress
      | none =>
        obtain ⟨error, hvalue⟩ :=
          operation.value_operation_of_no_address (V := V) haddress (Or.inr (Or.inr ⟨_, hasks⟩))
        exact live_serve_of_error hvalue

end Serve

end ManagerStorage

namespace SharedStorage

/-- One call of a run, with its outcome. -/
def advance (lib : IpLibrary Address) (self : SharedStorage V) (call : ProcessCall V) :
    memory.Outcome V × SharedStorage V :=
  (⟨⟨call.now, call.event⟩, (self.perform lib call).1⟩, (self.perform lib call).2)

/-- The outcomes of a sequence of calls. -/
def run (lib : IpLibrary Address) (calls : List (ProcessCall V)) : List (memory.Outcome V) :=
  outputs (advance lib) init calls

/-- The run lemma: what shows at a control's key, in every process, is what the
    changes of all of them leave standing and time has not ended. -/
theorem live_settle (lib : IpLibrary Address) {calls : List (ProcessCall V)}
    (hmono : calls.Pairwise (fun first second => first.now ≤ second.now))
    (hspares : ∀ call ∈ calls, SparesControls call.event) {now : ℚ} (hnow : ∀ call ∈ calls, call.now ≤ now)
    (process : Nat) {key : String} (hcontrol : starts_with key "ip:" = true) (hkey : plain key) :
    live now (((settle (advance lib) init calls).storage process).entry key) =
      live now (standing (memory.Outcome.change lib) (run lib calls) key) := by
  induction calls using List.reverseRecOn generalizing now process with
  | nil => rfl
  | append_singleton before call ih =>
    obtain ⟨hordered, -, hlast⟩ := List.pairwise_append.mp hmono
    obtain ⟨hbefore, hown⟩ := List.forall_mem_append.mp hspares
    have hle : call.now ≤ now := hnow call (by simp)
    have htidy : ((settle (advance lib) init before).storage call.process).Tidy :=
      settle_tidy lib (fun other hother => (hbefore other hother).expiries) call.process
    have hshows := ih hordered hbefore (fun other hother => hlast other hother call (by simp)) call.process
    have hserved := htidy.live_serve lib call.time call.now (hown call (by simp)) hcontrol hkey
    rw [run, settle_concat, outputs_concat, standing_concat, ← live_live_of_le hle]
    refine (congrArg (live now) hserved).trans ?_
    rw [hshows, live_changed hle]
    rfl

/-- Every lookup answers whether the last change of the control that completed,
    in whichever process, set it for a duration that has not elapsed. -/
theorem asks_exact {before rest : List (ProcessCall V)} {call : ProcessCall V}
    (hmono : (before ++ call :: rest).Pairwise (fun first second => first.now ≤ second.now))
    (hspares : ∀ other ∈ before ++ call :: rest, SparesControls other.event)
    {operation : IpOperation} {control : Control} {ip : String} {address : Address}
    (hevent : call.event = .ip operation) (hasks : operation.asks = some (control, ip))
    (haddress : lib.ip_address ip = some address) :
    ∃ holds, (run lib (before ++ call :: rest))[before.length]? =
        some ⟨⟨call.now, call.event⟩, .ok (.answer holds)⟩ ∧
      (holds = true ↔ memory.LastSet lib control address call.now (run lib before)) := by
  obtain ⟨hordered, -, hlast⟩ := List.pairwise_append.mp hmono
  obtain ⟨hbefore, -⟩ := List.forall_mem_append.mp hspares
  have hplain := plain_control_key lib control address
  have htidy : ((settle (advance lib) init before).storage call.process).Tidy :=
    settle_tidy lib (fun other hother => (hbefore other hother).expiries) call.process
  have hshows := live_settle lib hordered hbefore (fun other hother => hlast other hother call (by simp))
    call.process (control.key_starts_with lib address) hplain
  have hreply := (htidy.get call.time call.now hplain).1
  refine ⟨(live call.now (standing (memory.Outcome.change lib) (run lib before) (control.key lib address))).isSome,
    ?_, (memory.lastSet_iff).symm⟩
  rw [run, outputs_getElem?]
  simp only [advance, perform, hevent,
    ManagerStorage.serve_of_value_operation _ (operation.value_operation_of_asks hasks haddress), hreply,
    Values.operate, hshows]
  cases hlive : live call.now (standing (memory.Outcome.change lib) (run lib before) (control.key lib address)) with
  | none => simp [Except.map, Reply.as_answer, PyValue.is_none_none]
  | some entry =>
    obtain ⟨hstanding, -⟩ := live_eq_some_iff.mp hlive
    obtain ⟨_, outcome, _, -, hchange, -⟩ := standing_eq_some_iff.mp hstanding
    obtain ⟨duration, -, rfl⟩ := memory.Outcome.change_eq_entry_iff.mp hchange
    simp [Except.map, Reply.as_answer, PyValue.is_none_str]

/-- A block under another spelling, asked for in another process while it lasts
    and after that. -/
def blocked_elsewhere : List (ProcessCall ClockedValue) :=
  [⟨0, 60, 0, .ip (.block_ip "2001:DB8::0:1" (some 2))⟩,
    ⟨1, 61, 1, .storage (.record_hit "2001:db8::1" "item" 0 60 (some 5))⟩,
    ⟨1, 61, 1, .ip (.is_blocked "2001:db8::1")⟩, ⟨2, 62, 2, .ip (.is_blocked "2001:db8::1")⟩]

end SharedStorage

end response_bandwidth_limiter.manager

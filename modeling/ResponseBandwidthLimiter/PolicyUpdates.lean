import ResponseBandwidthLimiter.Backends.Memory.Counters
import ResponseBandwidthLimiter.Collections.Transitions
import ResponseBandwidthLimiter.Limiter
import ResponseBandwidthLimiter.Policy
import Mathlib.Data.Finset.Order

open collections sliding_window
open response_bandwidth_limiter.base response_bandwidth_limiter.models response_bandwidth_limiter.policy
open response_bandwidth_limiter.memory response_bandwidth_limiter.limiter

namespace response_bandwidth_limiter.policy_updates

/-- What an `update_policy` or `remove_policy` call has still to do, after its
    locked part. -/
inductive UpdateStage where
  | cleanup_handler_counters
  | cleanup_orphaned_counters
  | returned
  deriving DecidableEq, Repr

/-- A call in progress, with the active rules it read under the lock. -/
structure PolicyUpdate where
  endpoint_name : String
  active_rules : OrderedDict String (List Rule)
  stage : UpdateStage

/-- A limiter over an in-memory storage, with the policy calls of all threads
    and the evaluations of all requests. -/
structure Deployment (V : Type) where
  limiter : Limiter
  storage : InMemoryStorage V
  updates : List PolicyUpdate
  evaluations : List Evaluation

/-- One locked step of a call, or of the evaluation of a request. -/
inductive DeploymentLabel where
  | update_policy (endpoint_name : String) (rules : List Rule)
  | remove_policy (endpoint_name : String)
  | clean_up (index : Nat) (now : ℚ)
  | get_rules (handler_name : String) (scope_identifiers : OrderedDict String String)
  | record_hit (index : Nat) (now : ℚ)

/-- The clock reading of a step. -/
def DeploymentLabel.now : DeploymentLabel → Option ℚ
  | .clean_up _ now => some now
  | .record_hit _ now => some now
  | _ => none

namespace Deployment

variable {V : Type}

def init (max_keys max_counters : ℕ+) (scope_resolvers : List String) : Deployment V where
  limiter := { Limiter.init with scope_resolvers }
  storage := .fresh max_keys max_counters
  updates := []
  evaluations := []

/-- The locked part of a policy call leaves the rest of it to do. -/
def begin_update (self : Deployment V) (endpoint_name : String)
    (written : Limiter × OrderedDict String (List Rule)) : Deployment V :=
  { self with
    limiter := written.1
    updates := self.updates ++ [⟨endpoint_name, written.2, .cleanup_handler_counters⟩] }

def continue_update (self : Deployment V) (index : Nat) (update : PolicyUpdate) (now : ℚ) :
    Option (Deployment V) :=
  match update.stage with
  | .cleanup_handler_counters =>
    some { self with
      storage := self.storage.cleanup_handler_counters update.endpoint_name
      updates := self.updates.set index { update with stage := .cleanup_orphaned_counters } }
  | .cleanup_orphaned_counters =>
    some { self with
      storage := self.storage.cleanup_orphaned_counters now update.active_rules
      updates := self.updates.set index { update with stage := .returned } }
  | .returned => none

/-- The next `record_hit` call of an evaluation. One that raises ends it. -/
def continue_evaluation (self : Deployment V) (index : Nat) (evaluation : Evaluation) (now : ℚ) :
    Option (Deployment V) :=
  match evaluation.next with
  | .record_hit request_key rule_index rule =>
    match self.storage.record_hit now request_key evaluation.handler_name rule_index rule.window_seconds
        (some (rule.count + 1)) with
    | (.ok result, storage) =>
      some { self with storage, evaluations := self.evaluations.set index (evaluation.resume result) }
    | (.error _, storage) => some { self with storage, evaluations := self.evaluations.eraseIdx index }
  | _ => none

def step (self : Deployment V) : DeploymentLabel → Option (Deployment V)
  | .update_policy endpoint_name rules =>
    match self.limiter.update_policy endpoint_name rules with
    | .error _ => some self
    | .ok written => some (self.begin_update endpoint_name written)
  | .remove_policy endpoint_name =>
    some (self.begin_update endpoint_name (self.limiter.remove_policy endpoint_name))
  | .clean_up index now => self.updates[index]?.bind (fun update => self.continue_update index update now)
  | .get_rules handler_name scope_identifiers =>
    let rules := self.limiter.get_rules handler_name
    some { self with evaluations := self.evaluations ++ [.start scope_identifiers handler_name rules] }
  | .record_hit index now =>
    self.evaluations[index]?.bind (fun evaluation => self.continue_evaluation index evaluation now)

/-- The step belongs to a policy call for a handler. -/
def acts_for (self : Deployment V) (handler_name : String) : DeploymentLabel → Bool
  | .update_policy endpoint_name _ => endpoint_name = handler_name
  | .remove_policy endpoint_name => endpoint_name = handler_name
  | .clean_up index _ => self.updates[index]?.any (fun update => update.endpoint_name = handler_name)
  | _ => false

/-- The window the step prunes a counter with, if it goes over it, and none
    inside when it removes the counter. -/
def pruning (self : Deployment V) (counter_key : CounterKey) (label : DeploymentLabel) : Option (ℚ × Option ℤ) :=
  match label with
  | .clean_up index now =>
    match self.updates[index]? with
    | some ⟨_, active_rules, .cleanup_orphaned_counters⟩ =>
      some (now, InMemoryStorage.active_window active_rules counter_key)
    | _ => none
  | .record_hit index now =>
    match self.evaluations[index]? with
    | none => none
    | some evaluation =>
      match evaluation.next with
      | .record_hit request_key rule_index rule =>
        if (request_key, evaluation.handler_name, rule_index) = counter_key then
          some (now, some rule.window_seconds)
        else none
      | _ => none
  | _ => none

/-- The window that the step prunes a counter with still holds a hit. -/
def Spares (self : Deployment V) (counter_key : CounterKey) (hit : ℚ) (label : DeploymentLabel) : Prop :=
  ∀ now window_seconds, self.pruning counter_key label = some (now, window_seconds) →
    ∃ seconds, window_seconds = some seconds ∧ now - seconds < hit

theorem active_window_pos {active_rules : OrderedDict String (List Rule)} {counter_key : CounterKey}
    {window_seconds : ℤ} (h : InMemoryStorage.active_window active_rules counter_key = some window_seconds) :
    0 < window_seconds := by
  unfold InMemoryStorage.active_window at h
  split at h
  · cases h
  · obtain ⟨rule, -, rfl⟩ := Option.map_eq_some_iff.mp h
    exact rule.window_seconds_pos

/-- What a step can leave of a counter: all of it, nothing, or what pruning it
    with some window leaves, with its own time behind. -/
inductive HistoryStep (self : Deployment V) (counter_key : CounterKey) (label : DeploymentLabel) :
    List ℚ → Prop
  | kept (hpruning : self.pruning counter_key label = none) :
      HistoryStep self counter_key label (self.storage.history counter_key)
  | emptied (hcause : self.acts_for counter_key.2.1 label ∨
        ∃ now, self.pruning counter_key label = some (now, none)) :
      HistoryStep self counter_key label []
  | pruned {now : ℚ} {window_seconds : ℤ} {added : List ℚ} (hnow : label.now = some now)
      (hpruning : self.pruning counter_key label = some (now, some window_seconds)) (hpos : 0 < window_seconds)
      (hadded : added = [] ∨ added = [now]) :
      HistoryStep self counter_key label (prune (now - window_seconds) (self.storage.history counter_key) ++ added)

section Steps

variable {self next : Deployment V} {label : DeploymentLabel} {index : Nat} {now : ℚ} (counter_key : CounterKey)

theorem clean_up_history (hstep : self.step (.clean_up index now) = some next) :
    self.HistoryStep counter_key (.clean_up index now) (next.storage.history counter_key) := by
  simp only [step, Option.bind_eq_some_iff] at hstep
  obtain ⟨⟨endpoint_name, active_rules, stage⟩, hupdate, hstep⟩ := hstep
  cases stage with
  | cleanup_handler_counters =>
    cases hstep
    simp only [InMemoryStorage.history_cleanup_handler_counters]
    split_ifs with hhandler
    · exact .emptied (Or.inl (by simp [acts_for, hupdate, hhandler]))
    · exact .kept (by simp [pruning, hupdate])
  | cleanup_orphaned_counters =>
    cases hstep
    have hhistory := InMemoryStorage.history_cleanup_orphaned_counters self.storage now active_rules counter_key
    have hpruning : self.pruning counter_key (.clean_up index now) =
        some (now, InMemoryStorage.active_window active_rules counter_key) := by
      simp [pruning, hupdate]
    cases hwindow : InMemoryStorage.active_window active_rules counter_key with
    | none =>
      rw [hwindow] at hhistory hpruning
      rw [hhistory]
      exact .emptied (Or.inr ⟨now, hpruning⟩)
    | some window_seconds =>
      rw [hwindow] at hhistory hpruning
      rw [hhistory, Option.elim_some, ← List.append_nil (prune _ _)]
      exact .pruned rfl hpruning (active_window_pos hwindow) (Or.inl rfl)
  | returned => cases hstep

theorem record_hit_history (hroom : self.storage.request_counters.size < self.storage.max_counters)
    (hstep : self.step (.record_hit index now) = some next) :
    self.HistoryStep counter_key (.record_hit index now) (next.storage.history counter_key) := by
  simp only [step, Option.bind_eq_some_iff] at hstep
  obtain ⟨evaluation, hevaluation, hstep⟩ := hstep
  simp only [continue_evaluation] at hstep
  split at hstep
  · next request_key rule_index rule hnext =>
    rw [InMemoryStorage.record_hit_eq _ _ _ _ _ _ (InMemoryStorage.validate_max_hits_rule rule)
      (Or.inr hroom)] at hstep
    cases hstep
    by_cases hkey : (request_key, evaluation.handler_name, rule_index) = counter_key
    · subst hkey
      obtain ⟨added, hrecord, hadded⟩ := record_eq_append (rule.window_seconds : ℚ)
        (InMemoryStorage.capacity (some (rule.count + 1)))
        (self.storage.history (request_key, evaluation.handler_name, rule_index)) now
      rw [InMemoryStorage.history_store_history_self, hrecord]
      exact .pruned rfl (by simp [pruning, hevaluation, hnext]) rule.window_seconds_pos hadded
    · rw [InMemoryStorage.history_store_history_of_ne _ _ (Ne.symm hkey)]
      exact .kept (by simp [pruning, hevaluation, hnext, hkey])
  · cases hstep

theorem step_history (hroom : self.storage.request_counters.size < self.storage.max_counters)
    (hstep : self.step label = some next) :
    self.HistoryStep counter_key label (next.storage.history counter_key) := by
  cases label with
  | update_policy endpoint_name rules =>
    have hsame : next.storage = self.storage := by
      simp only [step] at hstep
      split at hstep <;> cases hstep <;> rfl
    rw [hsame]
    exact .kept rfl
  | remove_policy endpoint_name =>
    cases hstep
    exact .kept rfl
  | clean_up index now => exact clean_up_history counter_key hstep
  | get_rules handler_name scope_identifiers =>
    cases hstep
    exact .kept rfl
  | record_hit index now => exact record_hit_history counter_key hroom hstep

/-- The histories are in order, and no hit is later than a time. -/
def Ordered (self : Deployment V) (time : ℚ) : Prop :=
  ∀ counter_key, Sorted (self.storage.history counter_key) ∧ ∀ hit ∈ self.storage.history counter_key, hit ≤ time

theorem Ordered.step {time : ℚ} (h : self.Ordered time) (hlater : ∀ now ∈ label.now, time ≤ now)
    (hroom : self.storage.request_counters.size < self.storage.max_counters)
    (hstep : self.step label = some next) : next.Ordered (label.now.getD time) := by
  intro counter_key
  obtain ⟨hsorted, hbound⟩ := h counter_key
  have hle : time ≤ label.now.getD time := by
    cases hnow : label.now with
    | none => exact le_refl time
    | some now => exact hlater now hnow
  have hbound_later : ∀ hit ∈ self.storage.history counter_key, hit ≤ label.now.getD time :=
    fun hit hhit => (hbound hit hhit).trans hle
  have hhistory := step_history counter_key hroom hstep
  generalize next.storage.history counter_key = history at hhistory
  cases hhistory with
  | kept => exact ⟨hsorted, hbound_later⟩
  | emptied => exact ⟨.nil, nofun⟩
  | pruned hnow hpruning hpos hadded =>
    rw [hnow, Option.getD_some] at hbound_later ⊢
    exact prune_append_sorted hsorted hbound_later _ hadded

/-- On an ordered history a step keeps a hit exactly when it spares it. -/
theorem hit_kept_iff_spares {time hit : ℚ} (h : self.Ordered time)
    (hroom : self.storage.request_counters.size < self.storage.max_counters)
    (hforeign : self.acts_for counter_key.2.1 label = false) (hstep : self.step label = some next)
    (hhit : hit ∈ self.storage.history counter_key) :
    hit ∈ next.storage.history counter_key ↔ self.Spares counter_key hit label := by
  have hhistory := step_history counter_key hroom hstep
  generalize next.storage.history counter_key = history at hhistory
  cases hhistory with
  | kept hpruning => exact ⟨fun _ => by simp [Spares, hpruning], fun _ => hhit⟩
  | emptied hcause =>
    obtain ⟨now, hpruning⟩ := hcause.resolve_left (by rw [hforeign]; exact Bool.false_ne_true)
    simp [Spares, hpruning]
  | @pruned now window_seconds added hnow hpruning hpos hadded =>
    have hspares : self.Spares counter_key hit label ↔ now - window_seconds < hit := by
      simp [Spares, hpruning]
    rw [hspares, List.mem_append, mem_prune_iff (h counter_key).1]
    constructor
    · rintro (⟨-, hinside⟩ | hnew)
      · exact hinside
      · rcases hadded with rfl | rfl
        · cases hnew
        · rw [List.mem_singleton.mp hnew]
          exact sub_lt_self now (Int.cast_pos.mpr hpos)
    · exact fun hinside => Or.inl ⟨hhit, hinside⟩

end Steps

/-- The steps read a clock that never goes back, and the counters stay below
    the capacity. -/
structure Regular (start : Deployment V) (labels : List DeploymentLabel) : Prop where
  mono : (labels.filterMap DeploymentLabel.now).Pairwise (· ≤ ·)
  below : ∀ steps rest state, labels = steps ++ rest → execute step start steps = some state →
    state.storage.request_counters.size < state.storage.max_counters

theorem Regular.of_append {start : Deployment V} {labels rest : List DeploymentLabel}
    (h : Regular start (labels ++ rest)) : Regular start labels where
  mono := (List.pairwise_append.mp (List.filterMap_append ▸ h.mono)).1
  below steps later state hsplit := h.below steps (later ++ rest) state (by rw [hsplit, List.append_assoc])

/-- Histories are in order in every state of a regular run. -/
theorem ordered_of_run {max_keys max_counters : ℕ+} {scope_resolvers : List String} {labels : List DeploymentLabel}
    (hregular : Regular (init max_keys max_counters scope_resolvers : Deployment V) labels) {state : Deployment V}
    (hrun : execute step (init max_keys max_counters scope_resolvers) labels = some state) {time : ℚ}
    (htime : ∀ now ∈ labels.filterMap DeploymentLabel.now, now ≤ time) : state.Ordered time := by
  induction labels using List.reverseRecOn generalizing state time with
  | nil =>
    cases hrun
    exact fun _ => ⟨.nil, nofun⟩
  | append_singleton earlier label ih =>
    obtain ⟨middle, hearlier, hstep⟩ := (execute_concat step).mp hrun
    have hmono := hregular.mono
    rw [List.filterMap_append, List.pairwise_append] at hmono
    have hroom := hregular.below earlier [label] middle rfl hearlier
    cases hnow : label.now with
    | none =>
      have hmiddle : middle.Ordered time := ih hregular.of_append hearlier
        (fun now hmem => htime now (by rw [List.filterMap_append]; exact List.mem_append_left _ hmem))
      have hnext := hmiddle.step (by simp [hnow]) hroom hstep
      rwa [hnow] at hnext
    | some now =>
      have hlast : now ∈ [label].filterMap DeploymentLabel.now := by simp [hnow]
      have hmiddle : middle.Ordered now := ih hregular.of_append hearlier
        (fun reading hreading => hmono.2.2 reading hreading now hlast)
      have hnext := hmiddle.step (by simp [hnow]) hroom hstep
      rw [hnow, Option.getD_some] at hnext
      have hle := htime now (by rw [List.filterMap_append]; exact List.mem_append_right _ hlast)
      exact fun counter_key => ⟨(hnext counter_key).1, fun hit hhit => ((hnext counter_key).2 hit hhit).trans hle⟩

/-- A step stores a hit that counts under the rule installed for its handler. -/
structure Records (before : Deployment V) (index : Nat) (now : ℚ) (counter_key : CounterKey) (rule : Rule)
    (after : Deployment V) : Prop where
  pending : ∃ evaluation, before.evaluations[index]? = some evaluation ∧
    evaluation.handler_name = counter_key.2.1 ∧ evaluation.next = .record_hit counter_key.1 counter_key.2.2 rule
  installed : (before.limiter.get_rules counter_key.2.1)[counter_key.2.2]? = some rule
  stepped : before.step (.record_hit index now) = some after
  stored : now ∈ after.storage.history counter_key

/-- A step of another handler's policy call, or of an evaluation, finds the hit
    stored, inside its window, and under the policy that was installed for its
    handler when it was counted. -/
structure Protected (state : Deployment V) (counter_key : CounterKey) (hit : ℚ) (rule : Rule) (policy : List Rule)
    (label : DeploymentLabel) : Prop where
  stored : hit ∈ state.storage.history counter_key
  installed : state.limiter.get_rules counter_key.2.1 = policy
  inside : ∀ now ∈ label.now, now - rule.window_seconds < hit
  foreign : state.acts_for counter_key.2.1 label = false

/-- A step of the run after a hit that finds it protected keeps it exactly when
    it spares it. Steps of calls for the handler itself may come before, and
    keep it or not. -/
theorem Protected.kept_iff {max_keys max_counters : ℕ+} {scope_resolvers : List String}
    {pre steps rest : List DeploymentLabel} {before after state next : Deployment V} {index : Nat} {now : ℚ}
    {counter_key : CounterKey} {rule : Rule} {policy : List Rule} {label : DeploymentLabel}
    (h : state.Protected counter_key now rule policy label)
    (hregular : Regular (init max_keys max_counters scope_resolvers : Deployment V)
      (pre ++ .record_hit index now :: (steps ++ label :: rest)))
    (hpre : execute step (init max_keys max_counters scope_resolvers) pre = some before)
    (hrecords : Records before index now counter_key rule after) (hsteps : execute step after steps = some state)
    (hstep : state.step label = some next) :
    now ∈ next.storage.history counter_key ↔ state.Spares counter_key now label := by
  have hrun : execute step (init max_keys max_counters scope_resolvers)
      (pre ++ .record_hit index now :: steps) = some state := by
    rw [execute_append, hpre, Option.bind_some, execute_cons, hrecords.stepped, Option.bind_some, hsteps]
  rw [← List.cons_append, ← List.append_assoc] at hregular
  obtain ⟨time, htime⟩ := Finset.exists_le
    ((pre ++ .record_hit index now :: steps).filterMap DeploymentLabel.now).toFinset
  have hordered := ordered_of_run hregular.of_append hrun
    (fun reading hreading => htime reading (List.mem_toFinset.mpr hreading))
  exact hit_kept_iff_spares counter_key hordered (hregular.below _ _ state rfl hrun) h.foreign hstep h.stored

/-- A hit counted under the installed rule of its handler is removed only by the
    handler's own policy calls, as long as it is inside its window and that
    policy is installed, exactly when every other step spares it: the calls for
    other handlers bring active rules that still hold the hit, and the other
    evaluations on the counter prune with windows that do. Active rules and
    evaluations from before the handler's last change need not. -/
theorem hit_kept_iff {max_keys max_counters : ℕ+} {scope_resolvers : List String} {pre post : List DeploymentLabel}
    {before after : Deployment V} {index : Nat} {now : ℚ} {counter_key : CounterKey} {rule : Rule}
    (hregular : Regular (init max_keys max_counters scope_resolvers : Deployment V)
      (pre ++ .record_hit index now :: post))
    (hpre : execute step (init max_keys max_counters scope_resolvers) pre = some before)
    (hrecords : Records before index now counter_key rule after) :
    (∀ steps label rest state next, post = steps ++ label :: rest → execute step after steps = some state →
      state.step label = some next →
      state.Protected counter_key now rule (before.limiter.get_rules counter_key.2.1) label →
      now ∈ next.storage.history counter_key) ↔
    ∀ steps label rest state next, post = steps ++ label :: rest → execute step after steps = some state →
      state.step label = some next →
      state.Protected counter_key now rule (before.limiter.get_rules counter_key.2.1) label →
      state.Spares counter_key now label := by
  constructor
  · intro hkept steps label rest state next hpost hsteps hstep hprotected
    refine (hprotected.kept_iff (hpost ▸ hregular) hpre hrecords hsteps hstep).mp ?_
    exact hkept steps label rest state next hpost hsteps hstep hprotected
  · intro hspares steps label rest state next hpost hsteps hstep hprotected
    refine (hprotected.kept_iff (hpost ▸ hregular) hpre hrecords hsteps hstep).mpr ?_
    exact hspares steps label rest state next hpost hsteps hstep hprotected

/-- A policy is installed for one handler, and before its clean-up ends another
    one is installed and cleaned up for a second handler, which then gets a
    request. -/
def late_cleanup_start : List DeploymentLabel :=
  [.update_policy "slow" [.one_per_minute], .update_policy "fast" [.one_per_minute], .clean_up 1 0, .clean_up 1 0,
    .get_rules "fast" (OrderedDict.empty.set "ip" "192.0.2.1")]

/-- The first clean-up goes on. -/
def late_cleanup_end : List DeploymentLabel := [.clean_up 0 2, .clean_up 0 3]

def late_cleanup_before : Option (Deployment PlainValue) := execute step (init 10 10 []) late_cleanup_start

def late_cleanup_after : Option (Deployment PlainValue) :=
  late_cleanup_before.bind (fun before => before.step (.record_hit 0 1))

private theorem late_cleanup_regular :
    Regular (init 10 10 [] : Deployment PlainValue)
      (late_cleanup_start ++ .record_hit 0 1 :: late_cleanup_end) := by
  refine ⟨by decide +kernel, ?_⟩
  intro steps rest state hsplit hrun
  have hbelow : ∀ taken ∈ List.range 9,
      (execute step (init 10 10 [] : Deployment PlainValue)
        ((late_cleanup_start ++ .record_hit 0 1 :: late_cleanup_end).take taken)).all
          (fun state => state.storage.request_counters.size < state.storage.max_counters) := by
    decide +kernel
  have hlength : steps.length < 9 := by
    have hsum := congrArg List.length hsplit
    simp only [late_cleanup_start, late_cleanup_end, List.length_append, List.length_cons, List.length_nil] at hsum
    omega
  have hstate := hbelow steps.length (List.mem_range.mpr hlength)
  rw [hsplit, List.take_left, hrun] at hstate
  simpa using hstate

private theorem late_cleanup_records {before after : Deployment PlainValue}
    (hbefore : late_cleanup_before = some before) (hafter : late_cleanup_after = some after) :
    Records before 0 1 ("192.0.2.1", "fast", 0) .one_per_minute after := by
  cases hbefore
  cases hafter
  exact ⟨⟨_, rfl, rfl, rfl⟩, rfl, rfl, List.mem_singleton.mpr rfl⟩

/-- The clean-up of the first handler removes a hit of the second one: it goes by
    the active rules from before the second policy. -/
theorem late_cleanup_loses_hit :
    ¬ ∀ (pre post : List DeploymentLabel) (before after : Deployment PlainValue) (index : Nat) (now : ℚ)
      (counter_key : CounterKey) (rule : Rule),
      Regular (init 10 10 [] : Deployment PlainValue) (pre ++ .record_hit index now :: post) →
      execute step (init 10 10 []) pre = some before → Records before index now counter_key rule after →
      ∀ steps label rest state next, post = steps ++ label :: rest → execute step after steps = some state →
        state.step label = some next →
        state.Protected counter_key now rule (before.limiter.get_rules counter_key.2.1) label →
        now ∈ next.storage.history counter_key := by
  intro hclaim
  have hkept := hclaim late_cleanup_start late_cleanup_end _ _ 0 1 ("192.0.2.1", "fast", 0) .one_per_minute
    late_cleanup_regular rfl (late_cleanup_records rfl rfl) [.clean_up 0 2] (.clean_up 0 3) [] _ _ rfl rfl rfl
    ⟨by decide +kernel, rfl, by decide +kernel, rfl⟩
  exact List.not_mem_nil hkept

theorem late_cleanup_kept_iff :
    ∃ before after, late_cleanup_before = some before ∧ late_cleanup_after = some after ∧
      ¬ ∀ steps label rest state next, late_cleanup_end = steps ++ label :: rest →
        execute step after steps = some state → state.step label = some next →
        state.Protected ("192.0.2.1", "fast", 0) 1 .one_per_minute (before.limiter.get_rules "fast") label →
        1 ∈ next.storage.history ("192.0.2.1", "fast", 0) := by
  refine ⟨_, _, rfl, rfl, ?_⟩
  rw [hit_kept_iff late_cleanup_regular rfl (late_cleanup_records rfl rfl)]
  intro hspares
  have hspared := hspares [.clean_up 0 2] (.clean_up 0 3) [] _ _ rfl rfl rfl
    ⟨by decide +kernel, rfl, by decide +kernel, rfl⟩
  obtain ⟨seconds, hnone, -⟩ := hspared 3 none rfl
  cases hnone

end Deployment

end response_bandwidth_limiter.policy_updates

import ResponseBandwidthLimiter.Backends.Memory.Histories
import ResponseBandwidthLimiter.PolicyUpdates
import Mathlib.Data.List.DropRight

open collections sliding_window
open response_bandwidth_limiter.base response_bandwidth_limiter.models response_bandwidth_limiter.policy
open response_bandwidth_limiter.memory response_bandwidth_limiter.limiter

namespace response_bandwidth_limiter.policy_updates

namespace Deployment

variable {V : Type}

/-- The time and the rule of the hit that the step records in a counter, if it
    records one there. -/
def hitting (self : Deployment V) (counter_key : CounterKey) : DeploymentLabel → Option (ℚ × Rule)
  | .record_hit index now =>
    match self.evaluations[index]? with
    | none => none
    | some evaluation =>
      match evaluation.next with
      | .record_hit request_key rule_index rule =>
        if (request_key, evaluation.handler_name, rule_index) = counter_key then some (now, rule) else none
      | _ => none
  | _ => none

/-- A counter belongs to a rule of the list installed for its handler. -/
def Installed (self : Deployment V) (counter_key : CounterKey) (rule : Rule) : Prop :=
  (self.limiter.get_rules counter_key.2.1)[counter_key.2.2]? = some rule

/-- A policy call for a handler has not returned. -/
def InProgress (self : Deployment V) (handler_name : String) : Prop :=
  ∃ update ∈ self.updates, update.endpoint_name = handler_name ∧ update.stage ≠ .returned

/-- A policy call for a handler has still to clean up the handler's counters. -/
def Uncleaned (self : Deployment V) (handler_name : String) : Prop :=
  ∃ update ∈ self.updates, update.endpoint_name = handler_name ∧ update.stage = .cleanup_handler_counters

/-- A step records a hit, if any, under an installed rule or ahead of a clean-up
    of its handler. -/
def Current (self : Deployment V) (label : DeploymentLabel) : Prop :=
  ∀ counter_key now rule, self.hitting counter_key label = some (now, rule) →
    self.Installed counter_key rule ∨ self.Uncleaned counter_key.2.1

theorem InProgress.of_uncleaned {self : Deployment V} {handler_name : String} (h : self.Uncleaned handler_name) :
    self.InProgress handler_name := by
  obtain ⟨update, hmem, hname, hstage⟩ := h
  exact ⟨update, hmem, hname, by rw [hstage]; nofun⟩

section Steps

variable {self next : Deployment V} {label : DeploymentLabel} {index : Nat} {now : ℚ}

/-- A counter that a storage can only have lost some of its oldest hits. -/
theorem history_suffix_of_get? {storage later : InMemoryStorage V} {counter_key : CounterKey}
    (h : ∀ stored, later.request_counters.get? counter_key = some stored →
      storage.request_counters.get? counter_key = some stored) :
    later.history counter_key <:+ storage.history counter_key := by
  unfold InMemoryStorage.history
  cases hlater : later.request_counters.get? counter_key with
  | none => exact List.nil_suffix
  | some stored => rw [h stored hlater]

/-- A `record_hit` step is the storage's call on the counter that the evaluation
    asks for. -/
theorem record_hit_cases (hstep : self.step (.record_hit index now) = some next) :
    ∃ counter_key rule, self.hitting counter_key (.record_hit index now) = some (now, rule) ∧
      (∀ query, query ≠ counter_key → self.hitting query (.record_hit index now) = none) ∧
      next.limiter = self.limiter ∧ next.updates = self.updates ∧
      next.storage = (self.storage.record_hit now counter_key.1 counter_key.2.1 counter_key.2.2 rule.window_seconds
        (some (rule.count + 1))).2 := by
  simp only [step, Option.bind_eq_some_iff] at hstep
  obtain ⟨evaluation, hevaluation, hstep⟩ := hstep
  simp only [continue_evaluation] at hstep
  split at hstep
  · next request_key rule_index rule hnext =>
    refine ⟨(request_key, evaluation.handler_name, rule_index), rule, by simp [hitting, hevaluation, hnext], ?_, ?_⟩
    · intro query hne
      simp [hitting, hevaluation, hnext, Ne.symm hne]
    · generalize self.storage.record_hit now request_key evaluation.handler_name rule_index rule.window_seconds
        (some (rule.count + 1)) = outcome at hstep
      obtain ⟨result, storage⟩ := outcome
      cases result with
      | ok result =>
        cases hstep
        exact ⟨rfl, rfl, rfl⟩
      | error e =>
        cases hstep
        exact ⟨rfl, rfl, rfl⟩
  · cases hstep

/-- A counter in which a step records a hit has the sliding window's history
    afterwards. -/
theorem history_of_hitting (hstep : self.step label = some next) {counter_key : CounterKey} {rule : Rule}
    (hhit : self.hitting counter_key label = some (now, rule)) :
    next.storage.history counter_key = record (rule.window_seconds : ℚ)
      (InMemoryStorage.capacity (some (rule.count + 1))) (self.storage.history counter_key) now := by
  cases label with
  | record_hit index time =>
    obtain ⟨key, found, hfound, hothers, -, -, hstorage⟩ := record_hit_cases hstep
    by_cases heq : counter_key = key
    · subst heq
      obtain ⟨rfl, rfl⟩ := Prod.mk.inj (Option.some.inj (hfound.symm.trans hhit))
      rw [hstorage, InMemoryStorage.record_hit_eq_record _ _ _ _ (InMemoryStorage.validate_max_hits_rule found)]
      exact InMemoryStorage.history_store_history_self _ _ _
    · rw [hothers counter_key heq] at hhit
      cases hhit
  | update_policy => cases hhit
  | remove_policy => cases hhit
  | clean_up => cases hhit
  | get_rules => cases hhit

/-- Any other counter can only lose its oldest hits. -/
theorem history_of_not_hitting (hstep : self.step label = some next) {counter_key : CounterKey}
    (hhit : self.hitting counter_key label = none) :
    next.storage.history counter_key <:+ self.storage.history counter_key := by
  cases label with
  | record_hit index time =>
    obtain ⟨key, found, hfound, -, -, -, hstorage⟩ := record_hit_cases hstep
    have hne : counter_key ≠ key := by
      rintro rfl
      rw [hhit] at hfound
      cases hfound
    rw [hstorage, InMemoryStorage.record_hit_eq_record _ _ _ _ (InMemoryStorage.validate_max_hits_rule found)]
    apply history_suffix_of_get?
    intro stored hstored
    simp only [InMemoryStorage.store_history, OrderedDict.get?_set_of_ne _ _ hne] at hstored
    exact InMemoryStorage.get?_of_counter_history hstored
  | update_policy endpoint_name rules =>
    simp only [step] at hstep
    split at hstep <;> cases hstep <;> exact List.suffix_refl _
  | remove_policy endpoint_name =>
    cases hstep
    exact List.suffix_refl _
  | get_rules handler_name scope_identifiers =>
    cases hstep
    exact List.suffix_refl _
  | clean_up index time =>
    simp only [step, Option.bind_eq_some_iff] at hstep
    obtain ⟨⟨endpoint_name, active_rules, stage⟩, hupdate, hstep⟩ := hstep
    cases stage with
    | cleanup_handler_counters =>
      cases hstep
      simp only [InMemoryStorage.history_cleanup_handler_counters]
      split
      · exact List.nil_suffix
      · exact List.suffix_refl _
    | cleanup_orphaned_counters =>
      cases hstep
      simp only [InMemoryStorage.history_cleanup_orphaned_counters]
      cases InMemoryStorage.active_window active_rules counter_key with
      | none => exact List.nil_suffix
      | some window_seconds => exact List.dropWhile_suffix _
    | returned => cases hstep

/-- What has been replaced is all that a list loses. -/
theorem mem_set_of_ne {A : Type*} {items : List A} {position : Nat} {first item replacement : A}
    (hfirst : items[position]? = some first) (hmem : item ∈ items) (hne : item ≠ first) :
    item ∈ items.set position replacement := by
  obtain ⟨place, hplace⟩ := List.mem_iff_getElem?.mp hmem
  have hother : position ≠ place := by
    rintro rfl
    exact hne (Option.some.inj (hplace.symm.trans hfirst))
  exact List.mem_of_getElem? ((List.getElem?_set_ne hother).trans hplace)

/-- An update that begins leaves the clean-up of its own handler to do, and those
    that were to do before. -/
theorem begin_update_cases (self : Deployment V) {handler_name endpoint_name : String}
    {written : Limiter × OrderedDict String (List Rule)}
    (hwritten : handler_name ≠ endpoint_name →
      written.1.get_rules handler_name = self.limiter.get_rules handler_name) :
    (self.begin_update endpoint_name written).Uncleaned handler_name ∨
      ((self.begin_update endpoint_name written).limiter.get_rules handler_name =
          self.limiter.get_rules handler_name ∧
        (self.Uncleaned handler_name → (self.begin_update endpoint_name written).Uncleaned handler_name)) := by
  by_cases heq : handler_name = endpoint_name
  · exact Or.inl ⟨_, List.mem_append_right _ (List.mem_singleton.mpr rfl), heq.symm, rfl⟩
  · refine Or.inr ⟨hwritten heq, ?_⟩
    rintro ⟨update, hmem, hupdate⟩
    exact ⟨update, List.mem_append_left _ hmem, hupdate⟩

/-- A clean-up that is to do stays so when another update goes on. -/
theorem Uncleaned.of_set {handler_name : String} (h : self.Uncleaned handler_name) {index : Nat}
    {update replacement : PolicyUpdate} (hupdate : self.updates[index]? = some update)
    (hother : update.stage = .cleanup_handler_counters → update.endpoint_name ≠ handler_name) :
    ∃ kept ∈ self.updates.set index replacement,
      kept.endpoint_name = handler_name ∧ kept.stage = .cleanup_handler_counters := by
  obtain ⟨kept, hmem, hname, hstage⟩ := h
  refine ⟨kept, mem_set_of_ne hupdate hmem ?_, hname, hstage⟩
  rintro rfl
  exact hother hstage hname

/-- What a step does for a handler: it leaves a clean-up of its counters to do,
    or has just removed them, or leaves its rules alone and every clean-up that
    was to do. -/
theorem step_cases (hstep : self.step label = some next) (handler_name : String) :
    next.Uncleaned handler_name ∨
      (∀ counter_key, counter_key.2.1 = handler_name → next.storage.request_counters.get? counter_key = none) ∨
      (next.limiter.get_rules handler_name = self.limiter.get_rules handler_name ∧
        (self.Uncleaned handler_name → next.Uncleaned handler_name)) := by
  cases label with
  | update_policy endpoint_name rules =>
    simp only [step] at hstep
    split at hstep
    · cases hstep
      exact Or.inr (Or.inr ⟨rfl, id⟩)
    · next written hwritten =>
      cases hstep
      refine (self.begin_update_cases fun hne => ?_).imp_right Or.inr
      simp only [Limiter.update_policy_cases hwritten, Limiter.get_rules, OrderedDict.get?_set_of_ne _ _ hne]
  | remove_policy endpoint_name =>
    cases hstep
    refine (self.begin_update_cases fun hne => ?_).imp_right Or.inr
    simp only [Limiter.remove_policy, Limiter.get_rules, OrderedDict.get?_erase_of_ne _ hne]
  | get_rules read scope_identifiers =>
    cases hstep
    exact Or.inr (Or.inr ⟨rfl, id⟩)
  | record_hit index now =>
    obtain ⟨_, _, -, -, hlimiter, hupdates, -⟩ := record_hit_cases hstep
    refine Or.inr (Or.inr ⟨by rw [hlimiter], fun h => ?_⟩)
    rwa [Uncleaned, hupdates]
  | clean_up index now =>
    simp only [step, Option.bind_eq_some_iff] at hstep
    obtain ⟨⟨endpoint_name, active_rules, stage⟩, hupdate, hstep⟩ := hstep
    cases stage with
    | cleanup_handler_counters =>
      cases hstep
      by_cases heq : endpoint_name = handler_name
      · subst heq
        exact Or.inr (Or.inl fun counter_key hname =>
          (InMemoryStorage.get?_cleanup_handler_counters _ _ _).trans (if_pos hname))
      · exact Or.inr (Or.inr ⟨rfl, fun h => h.of_set hupdate (fun _ => heq)⟩)
    | cleanup_orphaned_counters =>
      cases hstep
      refine Or.inr (Or.inr ⟨rfl, fun h => h.of_set hupdate fun hstage => ?_⟩)
      cases hstage
    | returned => cases hstep

end Steps

end Deployment

/-- A deployment with what it does not keep itself: the rule under which each
    stored hit was recorded, and the rules with whose windows hits have pruned
    each stored counter. -/
structure Ledger (V : Type) where
  deployment : Deployment V
  recorded : CounterKey → List (ℚ × Rule)
  pruned_by : CounterKey → List Rule

/-- A hit counted with its rule, as the storage counts the hit. -/
def record_with (rule : Rule) (now : ℚ) (hits : List (ℚ × Rule)) : List (ℚ × Rule) :=
  let kept := hits.dropWhile (fun hit => hit.1 ≤ now - rule.window_seconds)
  if (kept.length : ℤ) < rule.count + 1 then kept ++ [(now, rule)] else kept

theorem record_with_times (rule : Rule) (now : ℚ) (hits : List (ℚ × Rule)) :
    (record_with rule now hits).map Prod.fst = record (rule.window_seconds : ℚ)
      (InMemoryStorage.capacity (some (rule.count + 1))) (hits.map Prod.fst) now := by
  have hkept : ((hits.dropWhile (fun hit => hit.1 ≤ now - rule.window_seconds)).map Prod.fst) =
      InMemoryStorage.cleanup_counter (hits.map Prod.fst) now rule.window_seconds := by
    rw [InMemoryStorage.cleanup_counter, List.dropWhile_map]
    rfl
  rw [← InMemoryStorage.stored_eq_record, ← hkept]
  simp only [record_with, InMemoryStorage.below_cap, List.length_map, decide_eq_true_eq]
  split
  · rw [List.map_append]
    rfl
  · rfl

theorem mem_record_with {rule : Rule} {now : ℚ} {hits : List (ℚ × Rule)} {hit : ℚ × Rule}
    (h : hit ∈ record_with rule now hits) : hit ∈ hits ∨ hit = (now, rule) := by
  unfold record_with at h
  simp only at h
  split at h
  · rcases List.mem_append.mp h with h | h
    · exact Or.inl ((List.dropWhile_suffix _).subset h)
    · exact Or.inr (List.mem_singleton.mp h)
  · exact Or.inl ((List.dropWhile_suffix _).subset h)

namespace Ledger

variable {V : Type}

def start (deployment : Deployment V) : Ledger V := ⟨deployment, fun _ => [], fun _ => []⟩

/-- What else a storage loses of a counter are its oldest hits, and a counter
    that is removed starts anew. -/
def step (self : Ledger V) (label : DeploymentLabel) : Option (Ledger V) :=
  (self.deployment.step label).map (fun next => {
    deployment := next
    recorded := fun counter_key =>
      ((self.deployment.hitting counter_key label).elim (self.recorded counter_key)
        (fun hit => record_with hit.2 hit.1 (self.recorded counter_key))).rtake
          (next.storage.history counter_key).length
    pruned_by := fun counter_key =>
      if (next.storage.request_counters.get? counter_key).isSome then
        self.pruned_by counter_key ++ ((self.deployment.hitting counter_key label).map Prod.snd).toList
      else [] })

/-- A ledger is kept along every run of its deployment. -/
theorem execute_deployment (self : Ledger V) (labels : List DeploymentLabel) :
    (execute step self labels).map Ledger.deployment = execute Deployment.step self.deployment labels := by
  induction labels generalizing self with
  | nil => rfl
  | cons label rest ih =>
    rw [execute_cons, execute_cons, step]
    cases self.deployment.step label with
    | none => rfl
    | some next => exact ih _

/-- All that is stored for a handler goes by the rules installed for it. -/
structure Clean (ledger : Ledger V) (handler_name : String) : Prop where
  hits : ∀ counter_key, counter_key.2.1 = handler_name → ∀ hit ∈ ledger.recorded counter_key,
    ledger.deployment.Installed counter_key hit.2
  prunings : ∀ counter_key, counter_key.2.1 = handler_name → ∀ rule ∈ ledger.pruned_by counter_key,
    ledger.deployment.Installed counter_key rule

/-- The ledger is that of the stored hits, and it is clean wherever no clean-up
    is left to do. -/
structure Tracked (ledger : Ledger V) : Prop where
  times : ∀ counter_key, (ledger.recorded counter_key).map Prod.fst = ledger.deployment.storage.history counter_key
  clean : ∀ handler_name, ¬ ledger.deployment.Uncleaned handler_name → ledger.Clean handler_name

theorem start_tracked (max_keys max_counters : ℕ+) (scope_resolvers : List String) :
    (start (.init max_keys max_counters scope_resolvers) : Ledger V).Tracked where
  times _ := rfl
  clean _ _ := ⟨fun _ _ _ hmem => absurd hmem List.not_mem_nil, fun _ _ _ hmem => absurd hmem List.not_mem_nil⟩

section Steps

variable {self next : Ledger V} {label : DeploymentLabel}

theorem times_step (htimes : ∀ counter_key,
      (self.recorded counter_key).map Prod.fst = self.deployment.storage.history counter_key)
    (hstep : self.step label = some next) (counter_key : CounterKey) :
    (next.recorded counter_key).map Prod.fst = next.deployment.storage.history counter_key := by
  obtain ⟨deployment, hdeployment, rfl⟩ := Option.map_eq_some_iff.mp hstep
  simp only [List.rtake, List.map_drop]
  cases hhit : self.deployment.hitting counter_key label with
  | some hit =>
    have hhistory := Deployment.history_of_hitting hdeployment hhit
    rw [← htimes, ← record_with_times] at hhistory
    rw [Option.elim_some, hhistory, List.length_map, Nat.sub_self, List.drop_zero]
  | none =>
    have hsuffix := Deployment.history_of_not_hitting hdeployment hhit
    rw [← htimes] at hsuffix
    have hlength : ((self.recorded counter_key).map Prod.fst).length = (self.recorded counter_key).length :=
      List.length_map _
    rw [Option.elim_none, ← hlength]
    exact (List.suffix_iff_eq_drop.mp hsuffix).symm

theorem Clean.of_removed (hstep : self.step label = some next) {handler_name : String}
    (hremoved : ∀ counter_key, counter_key.2.1 = handler_name →
      next.deployment.storage.request_counters.get? counter_key = none) : next.Clean handler_name := by
  obtain ⟨deployment, hdeployment, rfl⟩ := Option.map_eq_some_iff.mp hstep
  constructor
  · intro counter_key hname hit hmem
    have hhistory : deployment.storage.history counter_key = [] := by
      rw [InMemoryStorage.history, hremoved counter_key hname, Option.getD_none]
    simp only [hhistory, List.length_nil, List.rtake_zero] at hmem
    cases hmem
  · intro counter_key hname rule hmem
    simp only [hremoved counter_key hname, Option.isSome_none, Bool.false_eq_true, if_false] at hmem
    cases hmem

theorem Clean.step {handler_name : String} (h : self.Clean handler_name)
    (hrules : next.deployment.limiter.get_rules handler_name = self.deployment.limiter.get_rules handler_name)
    (hcurrent : self.deployment.Current label) (hcleaned : ¬ self.deployment.Uncleaned handler_name)
    (hstep : self.step label = some next) : next.Clean handler_name := by
  obtain ⟨deployment, hdeployment, rfl⟩ := Option.map_eq_some_iff.mp hstep
  have hinstalled {counter_key : CounterKey} {rule : Rule} (hname : counter_key.2.1 = handler_name)
      (hold : self.deployment.Installed counter_key rule) : deployment.Installed counter_key rule := by
    rwa [Deployment.Installed, hname, hrules, ← hname]
  have hhitting {counter_key : CounterKey} {now : ℚ} {rule : Rule} (hname : counter_key.2.1 = handler_name)
      (hhit : self.deployment.hitting counter_key label = some (now, rule)) :
      deployment.Installed counter_key rule :=
    hinstalled hname ((hcurrent counter_key now rule hhit).resolve_right (hname ▸ hcleaned))
  constructor
  · intro counter_key hname hit hmem
    have hmem := List.mem_of_mem_drop hmem
    cases hhit : self.deployment.hitting counter_key label with
    | none =>
      rw [hhit] at hmem
      exact hinstalled hname (h.hits counter_key hname hit hmem)
    | some recorded =>
      rw [hhit] at hmem
      rcases mem_record_with hmem with hold | rfl
      · exact hinstalled hname (h.hits counter_key hname hit hold)
      · exact hhitting hname hhit
  · intro counter_key hname rule hmem
    simp only at hmem
    split at hmem
    · rcases List.mem_append.mp hmem with hold | hnew
      · exact hinstalled hname (h.prunings counter_key hname rule hold)
      · obtain ⟨hit, hhit, rfl⟩ := Option.map_eq_some_iff.mp (Option.mem_toList.mp hnew)
        exact hhitting hname hhit
    · cases hmem

/-- The step lemma. -/
theorem Tracked.step (h : self.Tracked) (hcurrent : self.deployment.Current label)
    (hstep : self.step label = some next) : next.Tracked where
  times := times_step h.times hstep
  clean handler_name hcleaned := by
    obtain ⟨deployment, hdeployment, hnext⟩ := Option.map_eq_some_iff.mp hstep
    have hsame : deployment = next.deployment := congrArg Ledger.deployment hnext
    rcases Deployment.step_cases (hsame ▸ hdeployment) handler_name with huncleaned | hremoved | ⟨hrules, hkept⟩
    · exact absurd huncleaned hcleaned
    · exact .of_removed hstep hremoved
    · exact (h.clean handler_name (fun huncleaned => hcleaned (hkept huncleaned))).step hrules hcurrent
        (fun huncleaned => hcleaned (hkept huncleaned)) hstep

end Steps

/-- In a run in which every hit is recorded under an installed rule, or ahead of
    a clean-up of its handler, a handler for which no policy call is in progress
    has no hit in its counters that was recorded under other rules than the
    installed ones, and no counter that a hit has pruned with another window. -/
theorem counters_start_clean {max_keys max_counters : ℕ+} {scope_resolvers : List String}
    {labels : List DeploymentLabel} {state : Ledger V}
    (hcurrent : ∀ before label rest, labels = before ++ label :: rest → ∀ earlier : Ledger V,
      execute step (start (.init max_keys max_counters scope_resolvers)) before = some earlier →
      earlier.deployment.Current label)
    (hrun : execute step (start (.init max_keys max_counters scope_resolvers)) labels = some state) :
    (∀ counter_key, (state.recorded counter_key).map Prod.fst = state.deployment.storage.history counter_key) ∧
      ∀ handler_name, ¬ state.deployment.InProgress handler_name → state.Clean handler_name := by
  have htracked : state.Tracked := by
    refine execute_invariant_along step (start_tracked max_keys max_counters scope_resolvers) ?_ hrun
    intro before label rest earlier next hsplit hbefore h hstep
    exact h.step (hcurrent before label rest hsplit earlier hbefore) hstep
  exact ⟨htracked.times, fun handler_name hidle =>
    htracked.clean handler_name fun huncleaned => hidle (.of_uncleaned huncleaned)⟩

/-- A policy with its clean-up, and the read of a request's evaluation. -/
def first_policy : List DeploymentLabel :=
  [.update_policy "download" [.one_per_minute], .clean_up 0 0, .clean_up 0 0,
    .get_rules "download" (OrderedDict.empty.set "ip" "192.0.2.1")]

/-- The request's hit is recorded. -/
theorem visit_starts_clean :
    ∃ state : Ledger PlainValue,
      execute step (start (.init 10 10 [])) (first_policy ++ [.record_hit 0 1]) = some state ∧
      (∀ counter_key,
        (state.recorded counter_key).map Prod.fst = state.deployment.storage.history counter_key) ∧
      ∀ handler_name, ¬ state.deployment.InProgress handler_name → state.Clean handler_name := by
  obtain ⟨state, hrun⟩ : ∃ state : Ledger PlainValue,
      execute step (start (.init 10 10 [])) (first_policy ++ [.record_hit 0 1]) = some state := ⟨_, rfl⟩
  refine ⟨state, hrun, counters_start_clean ?_ hrun⟩
  simp only [first_policy, List.cons_append, List.nil_append, forall_split_cons]
  refine ⟨fun _ _ _ _ _ => nofun, fun _ _ _ _ _ => nofun, fun _ _ _ _ _ => nofun, fun _ _ _ _ _ => nofun, ?_,
    fun _ _ _ hsplit => absurd hsplit (by simp)⟩
  rintro _ ⟨rfl⟩ counter_key now rule hhit
  change (if ("192.0.2.1", "download", 0) = counter_key then some (1, Rule.one_per_minute) else none) =
    some (now, rule) at hhit
  split at hhit
  · next hkey =>
    cases hhit
    subst hkey
    exact Or.inl rfl
  · cases hhit

/-- A second policy with its clean-up comes in between. -/
def second_policy : List DeploymentLabel :=
  [.update_policy "download" [{ Rule.one_per_minute with count := 2, count_pos := by decide }], .clean_up 1 0,
    .clean_up 1 0]

/-- A request that read the first policy records its hit after the clean-up of
    the second one. -/
theorem stale_visit_not_clean :
    ¬ ∀ (labels : List DeploymentLabel) (state : Ledger PlainValue) (handler_name : String),
      execute step (start (.init 10 10 [])) labels = some state → ¬ state.deployment.InProgress handler_name →
        state.Clean handler_name := by
  intro hclaim
  have hclean := hclaim (first_policy ++ second_policy ++ [.record_hit 0 1]) _ "download" rfl ?_
  · have hinstalled := hclean.hits ("192.0.2.1", "download", 0) rfl (1, .one_per_minute) (List.mem_singleton.mpr rfl)
    have hcount := congrArg (Option.map Rule.count) hinstalled
    revert hcount
    decide
  · rintro ⟨update, hmem, -, hstage⟩
    have hreturned : update.stage ∈ [UpdateStage.returned, .returned] := List.mem_map_of_mem hmem
    exact hstage (by simpa using hreturned)

end Ledger

end response_bandwidth_limiter.policy_updates

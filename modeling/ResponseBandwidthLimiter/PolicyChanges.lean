import ResponseBandwidthLimiter.Backends.Memory.Counters
import ResponseBandwidthLimiter.Limiter

open collections sliding_window
open response_bandwidth_limiter.base response_bandwidth_limiter.models response_bandwidth_limiter.memory

namespace response_bandwidth_limiter.limiter

/-- A policy call of a limiter. -/
inductive PolicyChange where
  | update_policy (endpoint_name : String) (rules : List Rule)
  | remove_policy (endpoint_name : String)

def PolicyChange.endpoint_name : PolicyChange → String
  | .update_policy endpoint_name _ => endpoint_name
  | .remove_policy endpoint_name => endpoint_name

/-- The locked part of the call, with the rules it takes for the active ones. -/
def Limiter.change (self : Limiter) : PolicyChange → Except PyError (Limiter × OrderedDict String (List Rule))
  | .update_policy endpoint_name rules => self.update_policy endpoint_name rules
  | .remove_policy endpoint_name => .ok (self.remove_policy endpoint_name)

/-- The call counts a hit of the rule that is installed at its place. -/
def Limiter.Installs (self : Limiter) (call : HitCall) : Prop :=
  ∃ rules, self.route_policies.get? call.handler_name = some rules ∧ rules[call.rule_index]? = some call.rule

/-- The policies of the other handlers stay, and are among the active ones. -/
theorem Limiter.get?_of_change {self : Limiter} {change : PolicyChange}
    {written : Limiter × OrderedDict String (List Rule)} (h : self.change change = .ok written)
    {handler_name : String} (hother : handler_name ≠ change.endpoint_name) :
    written.2.get? handler_name = self.route_policies.get? handler_name := by
  cases change with
  | update_policy endpoint_name rules =>
    rw [update_policy_cases h]
    exact OrderedDict.get?_set_of_ne _ _ hother
  | remove_policy endpoint_name =>
    cases h
    exact OrderedDict.get?_erase_of_ne _ hother

/-- The rules of the other handlers stay. -/
theorem Limiter.get_rules_of_change {self : Limiter} {change : PolicyChange}
    {written : Limiter × OrderedDict String (List Rule)} (h : self.change change = .ok written)
    {handler_name : String} (hother : handler_name ≠ change.endpoint_name) :
    written.1.get_rules handler_name = self.get_rules handler_name := by
  have hpolicies : written.1.route_policies = written.2 := by
    cases change with
    | update_policy endpoint_name rules => rw [update_policy_cases h]
    | remove_policy endpoint_name =>
      cases h
      rfl
  rw [get_rules, get_rules, hpolicies, get?_of_change h hother]

end response_bandwidth_limiter.limiter

namespace response_bandwidth_limiter.memory

open response_bandwidth_limiter.limiter

variable {V : Type}

namespace InMemoryStorage

/-- The clean-ups that follow the locked part of a policy call. -/
def clean_up (self : InMemoryStorage V) (now : ℚ) (endpoint_name : String)
    (active_rules : OrderedDict String (List Rule)) : InMemoryStorage V :=
  (self.cleanup_handler_counters endpoint_name).cleanup_orphaned_counters now active_rules

/-- A clean-up keeps what the windows of the active rules hold of the other
    handlers' counters. -/
theorem history_clean_up_of_ne (self : InMemoryStorage V) (now : ℚ) {endpoint_name : String}
    {active_rules : OrderedDict String (List Rule)} {counter_key : CounterKey} {window_seconds : ℤ}
    (hother : counter_key.2.1 ≠ endpoint_name)
    (hwindow : active_window active_rules counter_key = some window_seconds) :
    (self.clean_up now endpoint_name active_rules).history counter_key =
      prune (now - window_seconds) (self.history counter_key) := by
  rw [clean_up, history_cleanup_orphaned_counters, hwindow, Option.elim_some, history_cleanup_handler_counters,
    if_neg hother]

/-- A clean-up adds no counter, and leaves none of its handler. -/
theorem mem_keys_of_clean_up {self : InMemoryStorage V} {now : ℚ} {endpoint_name : String}
    {active_rules : OrderedDict String (List Rule)} {counter_key : CounterKey}
    (hmem : counter_key ∈ (self.clean_up now endpoint_name active_rules).request_counters.keys) :
    counter_key.2.1 ≠ endpoint_name ∧ counter_key ∈ self.request_counters.keys := by
  obtain ⟨stored, hstored⟩ := OrderedDict.mem_keys_iff.mp hmem
  simp only [clean_up, cleanup_orphaned_counters, OrderedDict.get?_eraseAll, OrderedDict.get?_mapValues,
    get?_cleanup_handler_counters, Option.ite_none_left_eq_some, Option.map_eq_some_iff] at hstored
  obtain ⟨-, before, ⟨hother, hbefore⟩, -⟩ := hstored
  exact ⟨hother, OrderedDict.mem_keys_iff.mpr ⟨before, hbefore⟩⟩

theorem history_clean_up_self (self : InMemoryStorage V) (now : ℚ) (endpoint_name : String)
    (active_rules : OrderedDict String (List Rule)) (request_key : String) (rule_index : Nat) :
    (self.clean_up now endpoint_name active_rules).history (request_key, endpoint_name, rule_index) = [] := by
  have hremoved : (request_key, endpoint_name, rule_index) ∉
      (self.clean_up now endpoint_name active_rules).request_counters.keys :=
    fun hmem => (mem_keys_of_clean_up hmem).1 rfl
  rw [history, OrderedDict.get?_eq_none_iff.mpr hremoved]
  rfl

/-- A counter is kept by the window of its rule. -/
theorem active_window_of_get_rules {limiter : Limiter} {active_rules : OrderedDict String (List Rule)}
    {handler_name : String} (hsame : active_rules.get? handler_name = limiter.route_policies.get? handler_name)
    {rule_index : Nat} {rule : Rule} (hrule : (limiter.get_rules handler_name)[rule_index]? = some rule)
    (request_key : String) :
    active_window active_rules (request_key, handler_name, rule_index) = some rule.window_seconds := by
  unfold Limiter.get_rules at hrule
  simp only [active_window, hsame]
  cases hrules : limiter.route_policies.get? handler_name with
  | none =>
    rw [hrules] at hrule
    cases hrule
  | some rules =>
    rw [hrules, Option.getD_some] at hrule
    simp only [hrule, Option.map_some]

theorem Fits.clean_up {self : InMemoryStorage V} {calls : List HitCall} (h : self.Fits calls) (now : ℚ)
    (endpoint_name : String) (active_rules : OrderedDict String (List Rule)) :
    (self.clean_up now endpoint_name active_rules).Fits calls := by
  unfold Fits at h ⊢
  have hmax : (self.clean_up now endpoint_name active_rules).max_counters = self.max_counters :=
    foldl_delete_key_max_counters _ _
  rw [hmax]
  refine le_trans (Finset.card_le_card ?_) h
  intro counter_key hmem
  rw [List.mem_toFinset, List.mem_append] at hmem ⊢
  exact hmem.imp (fun hkept => (mem_keys_of_clean_up hkept).2) id

/-- Two storages hold the same hits of the counters of some calls, as far as the
    windows reach that end at a time or later. -/
def AgreeFrom (now : ℚ) (counted : HitCall → Prop) (first second : InMemoryStorage V) : Prop :=
  ∀ call, counted call → ∀ later, now ≤ later →
    prune (later - call.rule.window_seconds) (first.history call.counter_key) =
      prune (later - call.rule.window_seconds) (second.history call.counter_key)

variable {now : ℚ} {counted : HitCall → Prop} {first second : InMemoryStorage V}

theorem AgreeFrom.store_history (h : AgreeFrom now counted first second) (counter_key : CounterKey)
    (stored : List ℚ) :
    AgreeFrom now counted (first.store_history counter_key stored) (second.store_history counter_key stored) := by
  intro call hcall later hlater
  by_cases heq : call.counter_key = counter_key
  · rw [heq, history_store_history_self, history_store_history_self]
  · rw [history_store_history_of_ne _ _ heq, history_store_history_of_ne _ _ heq]
    exact h call hcall later hlater

/-- Storages that agree answer the calls alike: a hit leaves one history in both
    of them. -/
theorem AgreeFrom.issue_eq (h : AgreeFrom now counted first second) {cap : HitCall → Option ℤ}
    {calls : List HitCall} (hcalls : ∀ call ∈ calls, counted call ∧ now ≤ call.now)
    (hfirst : first.Fits calls) (hsecond : second.Fits calls) : first.issue cap calls = second.issue cap calls := by
  induction calls generalizing first second with
  | nil => rfl
  | cons call rest ih =>
    obtain ⟨hcounted, hnow⟩ := hcalls call List.mem_cons_self
    have hrest := fun later hlater => hcalls later (List.mem_cons_of_mem call hlater)
    simp only [issue, outputs, hit]
    cases hvalid : validate_max_hits (cap call) with
    | error e =>
      simp only [record_hit, hvalid]
      refine congrArg _ (ih h hrest ?_ ?_)
      · exact hfirst.of_cons
      · exact hsecond.of_cons
    | ok _ =>
      have hsame := record_congr (h call hcounted call.now hnow) (capacity (cap call))
      rw [record_hit_eq first _ _ _ _ _ hvalid (fits_room hfirst),
        record_hit_eq second _ _ _ _ _ hvalid (fits_room hsecond)]
      simp only [HitCall.counter_key] at hsame
      rw [hsame]
      refine congrArg _ (ih (h.store_history call.counter_key _) hrest ?_ ?_)
      · exact hfirst.tail _
      · exact hsecond.tail _

end InMemoryStorage

end response_bandwidth_limiter.memory

namespace response_bandwidth_limiter.policy_changes

open response_bandwidth_limiter.limiter

variable {V : Type}

/-- A limiter over an in-memory storage. -/
structure LocalLimiter (V : Type) where
  limiter : Limiter
  storage : InMemoryStorage V

namespace LocalLimiter

/-- A whole policy call, at a clock reading of its clean-up. -/
def change_policy (self : LocalLimiter V) (now : ℚ) (change : PolicyChange) : Except PyError (LocalLimiter V) := do
  let (limiter, active_rules) ← self.limiter.change change
  return ⟨limiter, self.storage.clean_up now change.endpoint_name active_rules⟩

theorem change_policy_cases {self next : LocalLimiter V} {now : ℚ} {change : PolicyChange}
    (h : self.change_policy now change = .ok next) :
    ∃ written, self.limiter.change change = .ok written ∧
      next = ⟨written.1, self.storage.clean_up now change.endpoint_name written.2⟩ := by
  unfold change_policy at h
  cases hwritten : self.limiter.change change with
  | error e =>
    rw [hwritten] at h
    cases h
  | ok written =>
    rw [hwritten] at h
    cases h
    exact ⟨written, rfl, rfl⟩

/-- A policy change touches only its own handler. It leaves no counter of that
    handler, and hits of the rules installed for other handlers, made at its time
    or later and with room for their counters, report the same as without it. -/
theorem policy_change_frame {self next : LocalLimiter V} {now : ℚ} {change : PolicyChange}
    (hchange : self.change_policy now change = .ok next) :
    (∀ counter_key ∈ next.storage.request_counters.keys, counter_key.2.1 ≠ change.endpoint_name) ∧
      ∀ (cap : HitCall → Option ℤ) (calls : List HitCall),
        (∀ call ∈ calls, call.handler_name ≠ change.endpoint_name ∧ self.limiter.Installs call ∧ now ≤ call.now) →
        self.storage.Fits calls → next.storage.issue cap calls = self.storage.issue cap calls := by
  obtain ⟨written, hwritten, rfl⟩ := change_policy_cases hchange
  refine ⟨fun counter_key hmem => (InMemoryStorage.mem_keys_of_clean_up hmem).1, ?_⟩
  intro cap calls hcalls hfits
  have hagree : InMemoryStorage.AgreeFrom now
      (fun call => call.handler_name ≠ change.endpoint_name ∧ self.limiter.Installs call)
      (self.storage.clean_up now change.endpoint_name written.2) self.storage := by
    rintro call ⟨hother, rules, hrules, hrule⟩ later hlater
    have hwindow : InMemoryStorage.active_window written.2 call.counter_key = some call.rule.window_seconds := by
      simp only [InMemoryStorage.active_window, HitCall.counter_key, Limiter.get?_of_change hwritten hother, hrules,
        hrule, Option.map_some]
    rw [InMemoryStorage.history_clean_up_of_ne _ _ hother hwindow]
    exact prune_prune_of_le _ (sub_le_sub_right hlater _)
  refine hagree.issue_eq (fun call hcall => ?_) (hfits.clean_up _ _ _) hfits
  obtain ⟨hother, hinstalled, hnow⟩ := hcalls call hcall
  exact ⟨⟨hother, hinstalled⟩, hnow⟩

/-- A hit of the first rule of a handler, by one client. -/
def visit (handler_name : String) (now : ℚ) : HitCall := ⟨"192.0.2.1", handler_name, 0, .one_per_minute, now⟩

/-- Two handlers with one visit each. -/
def visited (storage : InMemoryStorage PlainValue) : LocalLimiter PlainValue where
  limiter := ⟨.empty, (OrderedDict.empty.set "slow" [.one_per_minute]).set "fast" [.one_per_minute], []⟩
  storage := storage.drive HitCall.max_hits [visit "slow" 0, visit "fast" 10]

theorem visited_frame :
    ∃ next, (visited (.fresh 2 2)).change_policy 30 (.remove_policy "slow") = .ok next ∧
      (∀ counter_key ∈ next.storage.request_counters.keys, counter_key.2.1 ≠ "slow") ∧
      next.storage.issue HitCall.max_hits [visit "fast" 40, visit "fast" 80] =
        (visited (.fresh 2 2)).storage.issue HitCall.max_hits [visit "fast" 40, visit "fast" 80] := by
  have hchange : (visited (.fresh 2 2)).change_policy 30 (.remove_policy "slow") = .ok _ := rfl
  obtain ⟨hremoved, hframe⟩ := policy_change_frame hchange
  refine ⟨_, hchange, hremoved, hframe HitCall.max_hits _ ?_ ?_⟩
  · intro call hcall
    have hrules : (visited (.fresh 2 2)).limiter.route_policies.get? "fast" = some [.one_per_minute] := rfl
    rcases List.mem_pair.mp hcall with rfl | rfl
    · exact ⟨by decide, ⟨_, hrules, rfl⟩, by decide⟩
    · exact ⟨by decide, ⟨_, hrules, rfl⟩, by decide⟩
  · unfold InMemoryStorage.Fits
    decide +kernel

end LocalLimiter

end response_bandwidth_limiter.policy_changes

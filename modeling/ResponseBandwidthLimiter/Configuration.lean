import ResponseBandwidthLimiter.ScopeResolution

open collections
open response_bandwidth_limiter.base response_bandwidth_limiter.models

namespace response_bandwidth_limiter.limiter

/-- `_validate_rate` on an argument of any type, with the messages of its two
    contexts. -/
def check_rate (rate : Argument ℤ) (decorator_context : Bool) : Except PyError ℤ :=
  match rate with
  | .other =>
    if decorator_context then
      .error (.type_error "Bandwidth limit must be an integer. Example: @limiter.limit(1024)")
    else .error (.type_error "Bandwidth limit must be an integer.")
  | .expected rate =>
    if rate ≤ 0 then
      if decorator_context then
        .error (.value_error "Bandwidth limit must be greater than 0. Remove the setting to disable it.")
      else .error (.value_error "Bandwidth limit must be greater than 0.")
    else .ok rate

/-- A call of a method that configures anything. A decorator made by `limit`
    calls `update_route` when it is applied. -/
inductive PublicCall where
  | update_route (endpoint_name : Argument String) (rate : Argument ℤ)
  | remove_route (endpoint_name : String)
  | limit (rate : Argument ℤ)
  | configure (call : ConfigurationCall)

/-- A rate that a call gives to a route. -/
inductive PublicCall.GivesRate : PublicCall → ℤ → Prop
  | update_route (endpoint_name : Argument String) (rate : ℤ) :
      GivesRate (.update_route endpoint_name (.expected rate)) rate

/-- A rule that a call gives to a policy. -/
inductive PublicCall.GivesRule : PublicCall → Rule → Prop
  | update_policy (endpoint_name : Argument String) (items : List (Argument Rule)) (cleanup : Except PyError Unit)
      (rule : Rule) (hitem : .expected rule ∈ items) :
      GivesRule (.configure (.update_policy endpoint_name (.expected items) cleanup)) rule

theorem check_rate_eq_ok {rate : Argument ℤ} {decorator_context : Bool} {checked : ℤ}
    (h : check_rate rate decorator_context = .ok checked) : rate = .expected checked ∧ 0 < checked := by
  unfold check_rate at h
  cases rate with
  | other =>
    simp only at h
    split at h <;> cases h
  | expected rate =>
    simp only at h
    split at h
    · split at h <;> cases h
    · next hpos =>
      cases h
      exact ⟨rfl, by omega⟩

/-- Rules that pass the check are the items of the list. -/
theorem check_rules_eq_ok {rules : Argument (List (Argument Rule))} {checked : List Rule}
    (h : check_rules rules = .ok checked) :
    ∃ items, rules = .expected items ∧ ∀ rule ∈ checked, Argument.expected rule ∈ items := by
  unfold check_rules at h
  cases rules with
  | other => cases h
  | expected items =>
    refine ⟨items, rfl, ?_⟩
    simp only at h
    split at h
    · cases h
    · next given hitems =>
      cases h
      clear * - hitems
      induction items generalizing checked with
      | nil =>
        cases hitems
        exact fun _ hrule => absurd hrule List.not_mem_nil
      | cons item rest ih =>
        simp only [List.mapM_cons, Option.bind_eq_bind, Option.bind_eq_some_iff, Option.pure_def,
          Option.some.injEq] at hitems
        obtain ⟨first, hfirst, later, hlater, rfl⟩ := hitems
        cases item with
        | other => cases hfirst
        | expected value =>
          cases hfirst
          intro rule hrule
          rcases List.mem_cons.mp hrule with rfl | hmem
          · exact List.mem_cons_self
          · exact List.mem_cons_of_mem _ (ih hlater rule hmem)

namespace Limiter

variable {self : Limiter} {rates : ℤ → Prop} {installs : Rule → Prop}

/-- What a public call answers, and the configuration it leaves. -/
def call (self : Limiter) : PublicCall → Except PyError Unit × Limiter
  | .update_route .other _ => (.error (.value_error "endpoint_name must be a non-empty string."), self)
  | .update_route (.expected endpoint_name) rate =>
    match validate_endpoint_name endpoint_name with
    | .error e => (.error e, self)
    | .ok () =>
      match (check_rate rate false).bind (self.update_route endpoint_name) with
      | .error e => (.error e, self)
      | .ok next => (.ok (), next)
  | .remove_route endpoint_name => (.ok (), self.remove_route endpoint_name)
  | .limit rate => ((check_rate rate true).map (fun _ => ()), self)
  | .configure call => self.configure call

/-- The invariant of the configuration: limits are positive, policies have
    rules, both belong to names that are not empty, and nothing is installed
    that no call gave. -/
structure Configured (rates : ℤ → Prop) (installs : Rule → Prop) (limiter : Limiter) : Prop where
  limits : ∀ endpoint_name rate, limiter.route_limits.get? endpoint_name = some rate →
    endpoint_name ≠ "" ∧ 0 < rate ∧ rates rate
  policies : ∀ endpoint_name rules, limiter.route_policies.get? endpoint_name = some rules →
    endpoint_name ≠ "" ∧ rules ≠ [] ∧ ∀ rule ∈ rules, installs rule

theorem configured_init : init.Configured rates installs := ⟨nofun, nofun⟩

theorem Configured.update_route (h : self.Configured rates installs) {endpoint_name : String} {rate : ℤ}
    (hrate : rates rate) {next : Limiter} (hok : self.update_route endpoint_name rate = .ok next) :
    next.Configured rates installs := by
  unfold Limiter.update_route validate_endpoint_name validate_rate at hok
  split at hok
  · cases hok
  · next hname =>
    split at hok
    · cases hok
    · next hpos =>
      cases hok
      refine ⟨fun name found hfound => ?_, h.policies⟩
      rw [OrderedDict.get?_set] at hfound
      split at hfound
      · next hsame =>
        cases hfound
        subst hsame
        exact ⟨hname, by omega, hrate⟩
      · exact h.limits name found hfound

theorem Configured.remove_route (h : self.Configured rates installs) (endpoint_name : String) :
    (self.remove_route endpoint_name).Configured rates installs := by
  refine ⟨fun name found hfound => ?_, h.policies⟩
  rw [Limiter.remove_route, OrderedDict.get?_erase] at hfound
  split at hfound
  · cases hfound
  · exact h.limits name found hfound

theorem Configured.update_policy (h : self.Configured rates installs) {endpoint_name : String} {rules : List Rule}
    (hname : endpoint_name ≠ "") (hrules : ∀ rule ∈ rules, installs rule)
    {written : Limiter × OrderedDict String (List Rule)}
    (hok : self.update_policy endpoint_name rules = .ok written) : written.1.Configured rates installs := by
  have hne : rules ≠ [] := by
    rintro rfl
    unfold Limiter.update_policy at hok
    cases hvalid : validate_endpoint_name endpoint_name <;> rw [hvalid] at hok <;> cases hok
  rw [update_policy_cases hok]
  refine ⟨h.limits, fun name found hfound => ?_⟩
  rw [OrderedDict.get?_set] at hfound
  split at hfound
  · next hsame =>
    cases hfound
    subst hsame
    exact ⟨hname, hne, hrules⟩
  · exact h.policies name found hfound

theorem Configured.remove_policy (h : self.Configured rates installs) (endpoint_name : String) :
    (self.remove_policy endpoint_name).1.Configured rates installs := by
  refine ⟨h.limits, fun name found hfound => ?_⟩
  rw [Limiter.remove_policy, OrderedDict.get?_erase] at hfound
  split at hfound
  · cases hfound
  · exact h.policies name found hfound

theorem Configured.configure (h : self.Configured rates installs) {call : ConfigurationCall}
    (hrules : ∀ rule, PublicCall.GivesRule (.configure call) rule → installs rule) :
    (self.configure call).2.Configured rates installs := by
  unfold Limiter.configure
  cases call with
  | register_scope_resolver scope_name resolver =>
    simp only
    split
    · exact h
    · next hok =>
      unfold Limiter.register_scope_resolver at hok
      cases scope_name with
      | other => cases hok
      | expected scope_name =>
        cases hname : normalize_scope_name scope_name with
        | error e => simp only [hname, reduceCtorEq] at hok
        | ok normalized =>
          simp only [hname] at hok
          split_ifs at hok
          cases hok
          exact ⟨h.limits, h.policies⟩
  | limit_rules rules => exact h
  | update_policy endpoint_name rules cleanup =>
    cases endpoint_name with
    | other => exact h
    | expected endpoint_name =>
      simp only
      split
      · exact h
      · next hname =>
        split
        · exact h
        · next hok =>
          cases hchecked : check_rules rules with
          | error e => simp only [hchecked, Except.bind, reduceCtorEq] at hok
          | ok checked =>
            rw [hchecked] at hok
            obtain ⟨items, rfl, hitems⟩ := check_rules_eq_ok hchecked
            refine h.update_policy ?_ (fun rule hrule => ?_) hok
            · rintro rfl
              cases hname
            · exact hrules rule (.update_policy _ items cleanup rule (hitems rule hrule))
  | remove_policy endpoint_name cleanup => exact h.remove_policy endpoint_name

/-- The step lemma: a call keeps the invariant, whether it raises or not. -/
theorem Configured.call (h : self.Configured rates installs) {call : PublicCall}
    (hrates : ∀ rate, call.GivesRate rate → rates rate) (hrules : ∀ rule, call.GivesRule rule → installs rule) :
    (self.call call).2.Configured rates installs := by
  unfold Limiter.call
  cases call with
  | update_route endpoint_name rate =>
    cases endpoint_name with
    | other => exact h
    | expected endpoint_name =>
      simp only
      split
      · exact h
      · split
        · exact h
        · next hok =>
          cases hchecked : check_rate rate false with
          | error e => simp only [hchecked, Except.bind, reduceCtorEq] at hok
          | ok checked =>
            rw [hchecked] at hok
            obtain ⟨rfl, -⟩ := check_rate_eq_ok hchecked
            exact h.update_route (hrates checked (.update_route _ checked)) hok
  | remove_route endpoint_name => exact h.remove_route endpoint_name
  | limit rate => exact h
  | configure call => exact h.configure hrules

/-- A limit that is selected is positive and was given. -/
theorem Configured.select_route_limit (h : self.Configured rates installs) {handler_names : List String} {rate : ℤ}
    (hselected : self.select_route_limit handler_names = some rate) : 0 < rate ∧ rates rate := by
  obtain ⟨handler_name, -, hlimit⟩ := List.exists_of_findSome?_eq_some hselected
  exact (h.limits handler_name rate hlimit).2

/-- Rules that are selected were given. -/
theorem Configured.select_policy_rules (h : self.Configured rates installs) (handler_names : List String) :
    ∀ rule ∈ (self.select_policy_rules handler_names).2, installs rule := by
  induction handler_names with
  | nil => exact fun _ hrule => absurd hrule List.not_mem_nil
  | cons handler_name rest ih =>
    unfold Limiter.select_policy_rules
    split
    · exact ih
    · intro rule hrule
      unfold Limiter.get_rules at hrule
      cases hrules : self.route_policies.get? handler_name with
      | none =>
        rw [hrules] at hrule
        cases hrule
      | some rules =>
        rw [hrules] at hrule
        exact (h.policies handler_name rules hrules).2.2 rule hrule

end Limiter

end response_bandwidth_limiter.limiter

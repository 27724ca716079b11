import ResponseBandwidthLimiter.Collections.Runs
import ResponseBandwidthLimiter.Middleware.Admittance

open collections
open response_bandwidth_limiter.base response_bandwidth_limiter.models response_bandwidth_limiter.policy
open response_bandwidth_limiter.limiter response_bandwidth_limiter.identity response_bandwidth_limiter.ip_manager
open response_bandwidth_limiter.middleware

namespace response_bandwidth_limiter.limiter

/-- An argument of the type that a method asks for, or of another one. -/
inductive Argument (A : Type) where
  | expected (value : A)
  | other

def Argument.expected? {A : Type} : Argument A → Option A
  | .expected value => some value
  | .other => none

/-- What a resolver is checked for. -/
structure ScopeResolver where
  callable : Bool
  is_async : Bool

/-- A list of rules, up to its check for unknown scopes. -/
def check_rules (rules : Argument (List (Argument Rule))) : Except PyError (List Rule) :=
  match rules with
  | .other => .error (.type_error "rules must be a list of Rule instances.")
  | .expected items =>
    match items.mapM Argument.expected? with
    | none => .error (.type_error "rules can only contain Rule instances.")
    | some rules => .ok rules

/-- A call of a method that configures scopes and policies. A decorator made by
    `limit_rules` calls `update_policy` when it is applied. The clean-up of the
    counters at the end of a policy call may raise. -/
inductive ConfigurationCall where
  | register_scope_resolver (scope_name : Argument String) (resolver : ScopeResolver)
  | limit_rules (rules : Argument (List (Argument Rule)))
  | update_policy (endpoint_name : Argument String) (rules : Argument (List (Argument Rule)))
      (cleanup : Except PyError Unit)
  | remove_policy (endpoint_name : String) (cleanup : Except PyError Unit)

namespace Limiter

def register_scope_resolver (self : Limiter) (scope_name : Argument String) (resolver : ScopeResolver) :
    Except PyError Limiter :=
  match scope_name with
  | .other => .error (.type_error "scope_name must be a string.")
  | .expected scope_name =>
    match normalize_scope_name scope_name with
    | .error e => .error e
    | .ok normalized_scope_name =>
      if is_builtin_scope normalized_scope_name then
        .error (.value_error ("scope '" ++ normalized_scope_name ++ "' is reserved."))
      else if !resolver.callable then .error (.type_error "resolver must be callable.")
      else if resolver.is_async then .error (.type_error "resolver must be synchronous.")
      else if normalized_scope_name ∈ self.scope_resolvers then
        .error (.value_error ("scope '" ++ normalized_scope_name ++ "' is already registered."))
      else .ok { self with scope_resolvers := self.scope_resolvers ++ [normalized_scope_name] }

/-- What a configuration call answers, and the configuration it leaves. -/
def configure (self : Limiter) : ConfigurationCall → Except PyError Unit × Limiter
  | .register_scope_resolver scope_name resolver =>
    match self.register_scope_resolver scope_name resolver with
    | .error e => (.error e, self)
    | .ok next => (.ok (), next)
  | .limit_rules rules => ((check_rules rules).bind self.validate_rules, self)
  | .update_policy .other _ _ => (.error (.value_error "endpoint_name must be a non-empty string."), self)
  | .update_policy (.expected endpoint_name) rules cleanup =>
    match validate_endpoint_name endpoint_name with
    | .error e => (.error e, self)
    | .ok () =>
      match (check_rules rules).bind (self.update_policy endpoint_name) with
      | .error e => (.error e, self)
      | .ok (next, _) => (cleanup, next)
  | .remove_policy endpoint_name cleanup => (cleanup, (self.remove_policy endpoint_name).1)

/-- A scope that `resolve_scope_identifiers` can resolve. -/
def Known (self : Limiter) (scope_name : String) : Prop :=
  is_builtin_scope scope_name = true ∨ scope_name ∈ self.scope_resolvers

/-- The invariant of the configuration: installed rules have known scopes. -/
def Resolvable (self : Limiter) : Prop :=
  ∀ endpoint_name rules, self.route_policies.get? endpoint_name = some rules → ∀ rule ∈ rules, self.Known rule.scope

variable {self next : Limiter}

/-- Validated rules have known scopes. -/
theorem known_of_validate_rules {rules : List Rule} (hvalid : self.validate_rules rules = .ok ()) :
    ∀ rule ∈ rules, self.Known rule.scope := by
  intro rule hrule
  unfold validate_rules at hvalid
  split at hvalid
  · cases hvalid
  · split at hvalid
    · next hunknown =>
      by_contra hother
      rw [Known, not_or] at hother
      have hmem : rule.scope ∈ self.unknown_scopes rules := by
        rw [unknown_scopes, List.mem_filter]
        exact ⟨List.mem_map_of_mem hrule, by simp [hother.1, hother.2]⟩
      rw [hunknown] at hmem
      cases hmem
    · cases hvalid

theorem Resolvable.update_policy (h : self.Resolvable) {endpoint_name : String} {rules : List Rule}
    {written : Limiter × OrderedDict String (List Rule)}
    (hok : self.update_policy endpoint_name rules = .ok written) :
    written.1.Resolvable := by
  have hvalid : self.validate_rules rules = .ok () := by
    unfold Limiter.update_policy at hok
    cases hname : validate_endpoint_name endpoint_name with
    | error e =>
      rw [hname] at hok
      cases hok
    | ok _ =>
      cases hrules : self.validate_rules rules with
      | error e =>
        rw [hname, hrules] at hok
        cases hok
      | ok _ => rfl
  rw [update_policy_cases hok]
  intro name installed hinstalled rule hrule
  rw [OrderedDict.get?_set] at hinstalled
  split at hinstalled
  · cases hinstalled
    exact known_of_validate_rules hvalid rule hrule
  · exact h name installed hinstalled rule hrule

theorem Resolvable.remove_policy (h : self.Resolvable) (endpoint_name : String) :
    (self.remove_policy endpoint_name).1.Resolvable := by
  intro name installed hinstalled rule hrule
  rw [Limiter.remove_policy, OrderedDict.get?_erase] at hinstalled
  split at hinstalled
  · cases hinstalled
  · exact h name installed hinstalled rule hrule

/-- Registration keeps the policies and the names that were registered. -/
theorem Resolvable.register_scope_resolver (h : self.Resolvable) {scope_name : Argument String}
    {resolver : ScopeResolver} (hok : self.register_scope_resolver scope_name resolver = .ok next) :
    next.Resolvable := by
  unfold Limiter.register_scope_resolver at hok
  cases scope_name with
  | other => cases hok
  | expected scope_name =>
    cases hname : normalize_scope_name scope_name with
    | error e => simp only [hname, reduceCtorEq] at hok
    | ok normalized =>
      simp only [hname] at hok
      split_ifs at hok
      cases hok
      intro name installed hinstalled rule hrule
      exact (h name installed hinstalled rule hrule).imp_right (List.mem_append_left _)

/-- The step lemma: every call keeps the invariant, whether it raises or not. -/
theorem Resolvable.configure (h : self.Resolvable) (call : ConfigurationCall) :
    (self.configure call).2.Resolvable := by
  unfold Limiter.configure
  cases call with
  | register_scope_resolver scope_name resolver =>
    simp only
    split
    · exact h
    · next hok => exact h.register_scope_resolver hok
  | limit_rules rules => exact h
  | update_policy endpoint_name rules cleanup =>
    cases endpoint_name with
    | other => exact h
    | expected endpoint_name =>
      simp only
      split
      · exact h
      · split
        · exact h
        · next hok =>
          cases hrules : check_rules rules with
          | error e => simp only [hrules, Except.bind, reduceCtorEq] at hok
          | ok checked =>
            rw [hrules] at hok
            exact h.update_policy hok
  | remove_policy endpoint_name cleanup => exact h.remove_policy endpoint_name

/-- The run lemma. -/
theorem resolvable_of_run (calls : List ConfigurationCall) : (settle configure init calls).Resolvable := by
  induction calls using List.reverseRecOn with
  | nil =>
    intro name installed hinstalled
    cases hinstalled
  | append_singleton earlier last ih =>
    rw [settle_concat]
    exact ih.configure last

end Limiter

end response_bandwidth_limiter.limiter

namespace response_bandwidth_limiter.identity

section Resolved

variable {Address : Type} (ips : IpLibrary Address) (request : HttpRequest) {limiter : Limiter}
variable (trust_proxy_headers : Bool)

/-- A known scope resolves, whatever its resolver does. -/
theorem resolve_scope_of_known {rule : Rule} (hknown : limiter.Known rule.scope) :
    ∃ identifier, resolve_scope ips request limiter trust_proxy_headers rule.scope = .ok identifier := by
  unfold resolve_scope
  by_cases hip : rule.scope = "ip"
  · exact ⟨_, if_pos hip⟩
  rw [if_neg hip]
  by_cases hdefault : rule.scope = "default"
  · exact ⟨_, if_pos hdefault⟩
  rw [if_neg hdefault]
  have hregistered : rule.scope ∈ limiter.scope_resolvers :=
    hknown.resolve_left (by simp [is_builtin_scope, hip, hdefault])
  have hstripped : strip rule.scope = rule.scope := by
    obtain ⟨given, hgiven⟩ := rule.scope_stripped
    rw [← hgiven, strip_strip]
  have hresolver : limiter.get_scope_resolver rule.scope = .ok (some rule.scope) := by
    have hname : normalize_scope_name rule.scope = .ok rule.scope := by
      rw [normalize_scope_name, hstripped, if_neg rule.scope_ne_empty]
    rw [Limiter.get_scope_resolver, hname]
    exact congrArg Except.ok (if_pos hregistered)
  simp only [hresolver]
  cases hresolved : request.scope_resolvers rule.scope with
  | raised => exact ⟨_, rfl⟩
  | returned_none => exact ⟨_, rfl⟩
  | returned str_value =>
    by_cases hblank : strip str_value = ""
    · exact ⟨_, if_pos hblank⟩
    · exact ⟨_, if_neg hblank⟩

/-- The loop resolves rules with known scopes and adds nothing else. -/
theorem resolve_scopes_of_known {rules : List Rule} (hknown : ∀ rule ∈ rules, limiter.Known rule.scope)
    (scope_identifiers : OrderedDict String String) :
    ∃ resolved, resolve_scopes ips request limiter trust_proxy_headers scope_identifiers rules = .ok resolved ∧
      ∀ scope_name, scope_name ∈ resolved.keys ↔
        scope_name ∈ scope_identifiers.keys ∨ ∃ rule ∈ rules, rule.scope = scope_name := by
  induction rules generalizing scope_identifiers with
  | nil => exact ⟨scope_identifiers, rfl, fun scope_name => by simp⟩
  | cons rule rest ih =>
    obtain ⟨hrule, hrest⟩ := List.forall_mem_cons.mp hknown
    unfold resolve_scopes
    by_cases hpresent : rule.scope ∈ scope_identifiers.keys
    · obtain ⟨resolved, hresolved, hkeys⟩ := ih hrest scope_identifiers
      refine ⟨resolved, by rw [if_pos hpresent, hresolved], fun scope_name => ?_⟩
      rw [hkeys, List.exists_mem_cons_iff]
      constructor
      · exact Or.imp_right Or.inr
      · rintro (hbefore | rfl | hlater)
        · exact Or.inl hbefore
        · exact Or.inl hpresent
        · exact Or.inr hlater
    · obtain ⟨identifier, hscope⟩ := resolve_scope_of_known ips request trust_proxy_headers hrule
      obtain ⟨resolved, hresolved, hkeys⟩ := ih hrest (scope_identifiers.set rule.scope identifier)
      refine ⟨resolved, by rw [if_neg hpresent, hscope]; exact hresolved, fun scope_name => ?_⟩
      rw [hkeys, OrderedDict.mem_keys_set, List.exists_mem_cons_iff, or_assoc, or_left_comm, eq_comm]

/-- Rules with known scopes are resolved to exactly their scopes. -/
theorem resolve_scope_identifiers_of_known {rules : List Rule} (hknown : ∀ rule ∈ rules, limiter.Known rule.scope) :
    ∃ scope_identifiers,
      resolve_scope_identifiers ips request limiter trust_proxy_headers rules = .ok scope_identifiers ∧
        ∀ scope_name, scope_name ∈ scope_identifiers.keys ↔ ∃ rule ∈ rules, rule.scope = scope_name := by
  obtain ⟨resolved, hresolved, hkeys⟩ := resolve_scopes_of_known ips request trust_proxy_headers hknown .empty
  refine ⟨resolved, hresolved, fun scope_name => ?_⟩
  rw [hkeys, or_iff_right]
  exact List.not_mem_nil

end Resolved

end response_bandwidth_limiter.identity

namespace response_bandwidth_limiter.policy

/-- Along an evaluation the identifiers stay, and the rules that remain are some
    of the given ones. -/
theorem Evaluation.foldl_resume (evaluation : Evaluation) (hits : List SlidingWindowResult) :
    (hits.foldl Evaluation.resume evaluation).scope_identifiers = evaluation.scope_identifiers ∧
      (hits.foldl Evaluation.resume evaluation).remaining ⊆ evaluation.remaining := by
  induction hits generalizing evaluation with
  | nil => exact ⟨rfl, List.Subset.refl _⟩
  | cons hit rest ih =>
    obtain ⟨hidentifiers, hremaining⟩ := ih (evaluation.resume hit)
    rw [List.foldl_cons]
    unfold Evaluation.resume at hidentifiers hremaining ⊢
    cases hcase : evaluation.remaining with
    | nil =>
      simp only [hcase] at hidentifiers hremaining ⊢
      exact ⟨hidentifiers, hremaining⟩
    | cons numbered later =>
      simp only [hcase] at hidentifiers hremaining ⊢
      exact ⟨hidentifiers, List.subset_cons_of_subset _ hremaining⟩

/-- With an identifier for every rule, no hit leads to the missing one. -/
theorem Evaluation.next_ne_fail {scope_identifiers : OrderedDict String String} {rules : List Rule}
    (hidentified : ∀ rule ∈ rules, rule.scope ∈ scope_identifiers.keys) (handler_name : String)
    (hits : List SlidingWindowResult) (error : PyError) :
    (hits.foldl Evaluation.resume (Evaluation.start scope_identifiers handler_name rules)).next ≠ .fail error := by
  obtain ⟨hsame, hremaining⟩ := (Evaluation.start scope_identifiers handler_name rules).foldl_resume hits
  unfold Evaluation.next
  split
  · exact fun h => EvaluationAction.noConfusion h
  · next rule index rest hrest =>
    rw [hrest] at hremaining
    have hmem : rule ∈ rules := List.fst_mem_of_mem_zipIdx (hremaining List.mem_cons_self)
    obtain ⟨request_key, hkey⟩ := OrderedDict.mem_keys_iff.mp (hidentified rule hmem)
    rw [hsame]
    simp only [Evaluation.start, hkey]
    exact fun h => EvaluationAction.noConfusion h

/-- With an identifier for every rule, `evaluate` raises only what a `record_hit`
    of the storage raised. -/
theorem evaluate_rules_error {S : Type} {storage_record_hit : RecordHit S}
    {scope_identifiers : OrderedDict String String}
    {handler_name : String} {remaining : List (Rule × Nat)} {matched_actions : List CandidateAction} {storage : S}
    (hidentified : ∀ numbered ∈ remaining, numbered.1.scope ∈ scope_identifiers.keys) {error : PyError}
    (herror : (evaluate_rules storage_record_hit scope_identifiers handler_name remaining matched_actions
      storage).1 =
      .error error) :
    ∃ storage request_key, ∃ numbered ∈ remaining,
      (record_hit storage_record_hit storage request_key handler_name numbered.2 numbered.1).1 = .error error := by
  induction remaining generalizing matched_actions storage with
  | nil => cases herror
  | cons numbered rest ih =>
    obtain ⟨rule, index⟩ := numbered
    obtain ⟨hrule, hrest⟩ := List.forall_mem_cons.mp hidentified
    obtain ⟨request_key, hkey⟩ := OrderedDict.mem_keys_iff.mp hrule
    simp only [evaluate_rules, hkey] at herror
    cases hhit : record_hit storage_record_hit storage request_key handler_name index rule with
    | mk result next =>
      simp only [hhit] at herror
      cases result with
      | error raised =>
        refine ⟨storage, request_key, (rule, index), List.mem_cons_self, ?_⟩
        cases herror
        rw [hhit]
      | ok hit_result =>
        obtain ⟨before, other_key, numbered, hmem, hraised⟩ := ih hrest herror
        exact ⟨before, other_key, numbered, List.mem_cons_of_mem _ hmem, hraised⟩

end response_bandwidth_limiter.policy

namespace response_bandwidth_limiter.middleware

/-- `proceed` where the scopes of the rules are resolved to given identifiers. -/
def Frame.proceed_resolved (limiter : Limiter) (self : Frame) (ip_allowed : Bool)
    (scope_identifiers : OrderedDict String String) : Frame :=
  match self.task.request.handler_names limiter with
  | [] => self.call_app
  | first :: rest =>
    let route_limit := limiter.select_route_limit (first :: rest)
    let (policy_handler_name, rules) := limiter.select_policy_rules (first :: rest)
    if self.coordinator.is_shutting_down && (route_limit.isSome || !rules.isEmpty) then
      self.respond build_shutdown_response .plain
    else if rules.isEmpty || ip_allowed then self.dispatch none route_limit
    else self.evaluate (.start scope_identifiers (policy_handler_name.getD first) rules) route_limit

/-- The branches of a failed scope resolution are the only ones that `proceed`
    has besides. -/
theorem Frame.proceed_eq_resolved {limiter : Limiter} {frame : Frame} {scope_identifiers : OrderedDict String String}
    (hresolved : frame.task.request.scope_identifiers limiter
      (limiter.select_policy_rules (frame.task.request.handler_names limiter)).2 = .ok scope_identifiers)
    (ip_allowed : Bool) :
    frame.proceed limiter ip_allowed = frame.proceed_resolved limiter ip_allowed scope_identifiers := by
  unfold proceed proceed_resolved
  cases hnames : frame.task.request.handler_names limiter with
  | nil => rfl
  | cons first rest =>
    rw [hnames] at hresolved
    simp only [hresolved]
    cases ip_allowed <;> cases (limiter.select_policy_rules (first :: rest)).2.isEmpty <;> rfl

end response_bandwidth_limiter.middleware

namespace response_bandwidth_limiter.limiter

theorem Limiter.Resolvable.get_rules {self : Limiter} (h : self.Resolvable) (handler_name : String) :
    ∀ rule ∈ self.get_rules handler_name, self.Known rule.scope := by
  intro rule hrule
  unfold Limiter.get_rules at hrule
  cases hrules : self.route_policies.get? handler_name with
  | none =>
    rw [hrules] at hrule
    cases hrule
  | some rules =>
    rw [hrules] at hrule
    exact h handler_name rules hrules rule hrule

theorem Limiter.Resolvable.select_policy_rules {self : Limiter} (h : self.Resolvable) (handler_names : List String) :
    ∀ rule ∈ (self.select_policy_rules handler_names).2, self.Known rule.scope := by
  induction handler_names with
  | nil => exact fun _ hrule => absurd hrule List.not_mem_nil
  | cons handler_name rest ih =>
    unfold Limiter.select_policy_rules
    split
    · exact ih
    · exact h.get_rules handler_name

/-- Scope resolution cannot fail for an installed policy: after any calls, also
    ones that raised, its scopes are known, every request resolves to exactly
    them, whatever the resolvers do, no evaluation misses an identifier, and no
    request is refused for its scopes. -/
theorem Limiter.scope_resolution_total {Address : Type} (calls : List ConfigurationCall)
    (arrival : Arrival Address) (handler_name : String) :
    let limiter := settle configure init calls
    let rules := limiter.get_rules handler_name
    (∀ rule ∈ rules, is_builtin_scope rule.scope = true ∨ rule.scope ∈ limiter.scope_resolvers) ∧
    (∃ scope_identifiers,
      resolve_scope_identifiers arrival.ips arrival.http limiter arrival.trusted_proxy_headers rules =
        .ok scope_identifiers ∧
      (∀ scope_name, scope_name ∈ scope_identifiers.keys ↔ ∃ rule ∈ rules, rule.scope = scope_name) ∧
      (∀ (hits : List SlidingWindowResult) (error : PyError),
        (hits.foldl Evaluation.resume (.start scope_identifiers handler_name rules)).next ≠ .fail error) ∧
      ∀ (S : Type) (storage_record_hit : RecordHit S) (storage : S) (error : PyError),
        (evaluate storage_record_hit storage scope_identifiers handler_name rules).1 = .error error →
        ∃ storage request_key, ∃ numbered ∈ rules.zipIdx,
          (record_hit storage_record_hit storage request_key handler_name numbered.2 numbered.1).1 = .error error) ∧
    ∀ coordinator extensions phase log ip_allowed, ∃ scope_identifiers,
      Frame.proceed limiter ⟨coordinator, ⟨arrival.request, extensions, phase, log⟩⟩ ip_allowed =
        Frame.proceed_resolved limiter ⟨coordinator, ⟨arrival.request, extensions, phase, log⟩⟩ ip_allowed
          scope_identifiers := by
  intro limiter rules
  have hresolvable : limiter.Resolvable := resolvable_of_run calls
  refine ⟨hresolvable.get_rules handler_name, ?_, ?_⟩
  · obtain ⟨scope_identifiers, hresolved, hkeys⟩ := resolve_scope_identifiers_of_known arrival.ips arrival.http
      arrival.trusted_proxy_headers (hresolvable.get_rules handler_name)
    have hidentified : ∀ rule ∈ rules, rule.scope ∈ scope_identifiers.keys :=
      fun rule hrule => (hkeys _).mpr ⟨rule, hrule, rfl⟩
    refine ⟨scope_identifiers, hresolved, hkeys, Evaluation.next_ne_fail hidentified handler_name, ?_⟩
    intro S storage_record_hit storage error herror
    refine evaluate_rules_error ?_ herror
    exact fun numbered hmem => hidentified _ (List.fst_mem_of_mem_zipIdx hmem)
  · intro coordinator extensions phase log ip_allowed
    obtain ⟨scope_identifiers, hresolved, -⟩ := resolve_scope_identifiers_of_known arrival.ips arrival.http
      arrival.trusted_proxy_headers (hresolvable.select_policy_rules (arrival.handler_names limiter))
    refine ⟨scope_identifiers, Frame.proceed_eq_resolved ?_ ip_allowed⟩
    simp only [Arrival.request, hresolved, Except.mapError]

theorem strip_tenant : strip "tenant" = "tenant" := by decide

theorem tenant_ne_empty : "tenant" ≠ "" := by decide

def tenant_rule : Rule :=
  { Rule.one_per_minute with
    scope := "tenant"
    scope_stripped := ⟨"tenant", strip_tenant⟩
    scope_ne_empty := tenant_ne_empty }

/-- A resolver is registered between two policies that need it. -/
def tenant_calls : List ConfigurationCall :=
  [.update_policy (.expected "report") (.expected [.expected tenant_rule]) (.ok ()),
    .register_scope_resolver (.expected " tenant ") ⟨true, false⟩,
    .update_policy (.expected "report") (.expected [.expected tenant_rule]) (.ok ())]

/-- A request for whose tenant the resolver raises. -/
def tenant_arrival : Arrival DocumentationAddress where
  ips := .documentation
  http := ⟨none, none, none, fun _ => .raised⟩
  trusted_proxy_headers := false
  handler_names := fun _ => ["report"]
  extensions := none

theorem Limiter.tenant_resolved :
    ∃ scope_identifiers, resolve_scope_identifiers .documentation tenant_arrival.http
      (settle configure init tenant_calls) false ((settle configure init tenant_calls).get_rules "report") =
        .ok scope_identifiers ∧ "tenant" ∈ scope_identifiers.keys := by
  obtain ⟨-, ⟨scope_identifiers, hresolved, hkeys, -⟩, -⟩ :=
    scope_resolution_total tenant_calls tenant_arrival "report"
  have hrule : tenant_rule ∈ (settle configure init tenant_calls).get_rules "report" := List.mem_singleton.mpr rfl
  exact ⟨scope_identifiers, hresolved, (hkeys "tenant").mpr ⟨tenant_rule, hrule, rfl⟩⟩

end response_bandwidth_limiter.limiter

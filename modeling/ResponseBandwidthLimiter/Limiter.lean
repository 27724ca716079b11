import ResponseBandwidthLimiter.Collections.OrderedDict
import ResponseBandwidthLimiter.Models
import Mathlib.Data.List.Dedup

open collections
open response_bandwidth_limiter.base response_bandwidth_limiter.models

namespace response_bandwidth_limiter.limiter

/-- The configuration a limiter holds under its lock. Of the scope resolvers
    only the names are part of it. -/
structure Limiter where
  route_limits : OrderedDict String ℤ
  route_policies : OrderedDict String (List Rule)
  scope_resolvers : List String

def is_builtin_scope (scope_name : String) : Bool := scope_name = "ip" || scope_name = "default"

def validate_endpoint_name (endpoint_name : String) : Except PyError Unit :=
  if endpoint_name = "" then .error (.value_error "endpoint_name must be a non-empty string.") else .ok ()

def validate_rate (rate : ℤ) : Except PyError Unit :=
  if rate ≤ 0 then .error (.value_error "Bandwidth limit must be greater than 0.") else .ok ()

def normalize_scope_name (scope_name : String) : Except PyError String :=
  if strip scope_name = "" then .error (.value_error "scope_name must be a non-empty string.")
  else .ok (strip scope_name)

theorem normalize_scope_name_error {scope_name : String} {e : PyError}
    (herror : normalize_scope_name scope_name = .error e) : ∃ message, e = .value_error message := by
  unfold normalize_scope_name at herror
  split at herror
  · cases herror
    exact ⟨_, rfl⟩
  · cases herror

namespace Limiter

def init : Limiter := ⟨.empty, .empty, []⟩

def unknown_scopes (self : Limiter) (rules : List Rule) : List String :=
  (rules.map Rule.scope).filter
    (fun scope_name => !is_builtin_scope scope_name && scope_name ∉ self.scope_resolvers)

def validate_rules (self : Limiter) (rules : List Rule) : Except PyError Unit :=
  if rules.isEmpty then .error (.value_error "rules must contain at least one item.")
  else
    match self.unknown_scopes rules with
    | [] => .ok ()
    | unknown_scopes =>
      let unique_scopes := ", ".intercalate (unknown_scopes.dedup.mergeSort (· ≤ ·))
      .error (.value_error
        ("Unknown scope(s): " ++ unique_scopes ++ ". Call register_scope_resolver() first."))

/-- The registered name a scope stands for. -/
def get_scope_resolver (self : Limiter) (scope_name : String) : Except PyError (Option String) := do
  let normalized_scope_name ← normalize_scope_name scope_name
  return if normalized_scope_name ∈ self.scope_resolvers then some normalized_scope_name else none

theorem get_scope_resolver_error {self : Limiter} {scope_name : String} {e : PyError}
    (herror : self.get_scope_resolver scope_name = .error e) : ∃ message, e = .value_error message := by
  unfold get_scope_resolver at herror
  cases hname : normalize_scope_name scope_name with
  | error raised =>
    rw [hname] at herror
    cases herror
    exact normalize_scope_name_error hname
  | ok normalized =>
    rw [hname] at herror
    cases herror

def get_limit (self : Limiter) (endpoint_name : String) : Option ℤ := self.route_limits.get? endpoint_name

def get_rules (self : Limiter) (endpoint_name : String) : List Rule :=
  (self.route_policies.get? endpoint_name).getD []

def update_route (self : Limiter) (endpoint_name : String) (rate : ℤ) : Except PyError Limiter := do
  validate_endpoint_name endpoint_name
  validate_rate rate
  return { self with route_limits := self.route_limits.set endpoint_name rate }

def remove_route (self : Limiter) (endpoint_name : String) : Limiter :=
  { self with route_limits := self.route_limits.erase endpoint_name }

/-- `update_policy` up to the end of its locked part, with the rules it takes
    for the active ones. -/
def update_policy (self : Limiter) (endpoint_name : String) (rules : List Rule) :
    Except PyError (Limiter × OrderedDict String (List Rule)) := do
  validate_endpoint_name endpoint_name
  self.validate_rules rules
  let route_policies := self.route_policies.set endpoint_name rules
  return ({ self with route_policies }, route_policies)

/-- An update that does not raise installs the rules and reads the active ones. -/
theorem update_policy_cases {self : Limiter} {endpoint_name : String} {rules : List Rule}
    {written : Limiter × OrderedDict String (List Rule)} (h : self.update_policy endpoint_name rules = .ok written) :
    written = ({ self with route_policies := self.route_policies.set endpoint_name rules },
      self.route_policies.set endpoint_name rules) := by
  unfold update_policy at h
  cases hname : validate_endpoint_name endpoint_name with
  | error e =>
    rw [hname] at h
    cases h
  | ok _ =>
    cases hrules : self.validate_rules rules with
    | error e =>
      rw [hname, hrules] at h
      cases h
    | ok _ =>
      rw [hname, hrules] at h
      cases h
      rfl

/-- `remove_policy` up to the end of its locked part. -/
def remove_policy (self : Limiter) (endpoint_name : String) : Limiter × OrderedDict String (List Rule) :=
  let route_policies := self.route_policies.erase endpoint_name
  ({ self with route_policies }, route_policies)

/-- `_select_route_limit`: the first handler name with a limit. -/
def select_route_limit (self : Limiter) (handler_names : List String) : Option ℤ :=
  handler_names.findSome? self.get_limit

/-- `_select_policy_rules`: the first handler name with rules, and its rules. -/
def select_policy_rules (self : Limiter) : List String → Option String × List Rule
  | [] => (none, [])
  | handler_name :: rest =>
    match self.get_rules handler_name with
    | [] => self.select_policy_rules rest
    | rules => (some handler_name, rules)

/-- Rules are selected together with the name they belong to. -/
theorem exists_of_select_policy_rules {self : Limiter} {handler_names : List String}
    (hrules : (self.select_policy_rules handler_names).2 ≠ []) :
    ∃ handler_name, (self.select_policy_rules handler_names).1 = some handler_name := by
  induction handler_names with
  | nil => exact absurd rfl hrules
  | cons handler_name rest ih =>
    unfold select_policy_rules at hrules ⊢
    split at hrules
    · exact ih hrules
    · exact ⟨handler_name, rfl⟩

end Limiter

end response_bandwidth_limiter.limiter

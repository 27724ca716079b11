import ResponseBandwidthLimiter.IpManager
import ResponseBandwidthLimiter.Limiter

open collections
open response_bandwidth_limiter.base response_bandwidth_limiter.models response_bandwidth_limiter.limiter
open response_bandwidth_limiter.ip_manager

namespace response_bandwidth_limiter.identity

/-- What a scope resolver does with a request: it raises, returns nothing, or
    returns an object with the given text. -/
inductive Resolution where
  | raised
  | returned_none
  | returned (text : String)
  deriving DecidableEq, Repr

/-- What identities are read from: two headers, the host of the client, and the
    registered resolvers by their names. -/
structure HttpRequest where
  x_forwarded_for : Option String
  x_real_ip : Option String
  client_host : Option String
  scope_resolvers : String → Resolution

section Addresses

variable {Address : Type} (ips : IpLibrary Address)

/-- The first valid address among the candidates. -/
def extract_valid_ip (raw_value : Option String) : Option String :=
  raw_value.bind fun raw_value =>
    (split ',' raw_value).findSome? fun candidate =>
      let normalized := strip candidate
      if normalized = "" then none else (ips.ip_address normalized).map ips.str

/-- The address the proxy headers name, where they are trusted. -/
def get_proxied_ip (request : HttpRequest) (trust_proxy_headers : Bool) : Option String :=
  if trust_proxy_headers then
    (extract_valid_ip ips request.x_forwarded_for).or (extract_valid_ip ips request.x_real_ip)
  else none

def get_client_identifier (request : HttpRequest) (trust_proxy_headers : Bool) : String :=
  match get_proxied_ip ips request trust_proxy_headers, request.client_host with
  | some proxied_ip, _ => proxied_ip
  | none, some host => (extract_valid_ip ips (some host)).getD host
  | none, none => "unknown"

def get_client_ip (request : HttpRequest) (trust_proxy_headers : Bool) : Option String :=
  (get_proxied_ip ips request trust_proxy_headers).or (extract_valid_ip ips request.client_host)

section Scopes

variable (request : HttpRequest) (limiter : Limiter) (trust_proxy_headers : Bool)

def fallback_identifier : String := (get_client_ip ips request trust_proxy_headers).getD "unknown"

/-- The body of the loop in `resolve_scope_identifiers` for a scope that was not
    resolved yet. -/
def resolve_scope (scope_name : String) : Except PyError String :=
  if scope_name = "ip" then .ok (fallback_identifier ips request trust_proxy_headers)
  else if scope_name = "default" then .ok (get_client_identifier ips request trust_proxy_headers)
  else
    match limiter.get_scope_resolver scope_name with
    | .error e => .error e
    | .ok none => .error (.value_error ("scope '" ++ scope_name ++ "' is not registered."))
    | .ok (some scope_resolver) =>
      match request.scope_resolvers scope_resolver with
      | .raised => .ok (fallback_identifier ips request trust_proxy_headers)
      | .returned_none => .ok (fallback_identifier ips request trust_proxy_headers)
      | .returned str_value =>
        if strip str_value = "" then .ok (fallback_identifier ips request trust_proxy_headers)
        else .ok str_value

/-- The loop of `resolve_scope_identifiers` over the rules that remain. -/
def resolve_scopes (scope_identifiers : OrderedDict String String) :
    List Rule → Except PyError (OrderedDict String String)
  | [] => .ok scope_identifiers
  | rule :: rest =>
    if rule.scope ∈ scope_identifiers.keys then resolve_scopes scope_identifiers rest
    else
      match resolve_scope ips request limiter trust_proxy_headers rule.scope with
      | .error e => .error e
      | .ok identifier => resolve_scopes (scope_identifiers.set rule.scope identifier) rest

def resolve_scope_identifiers (rules : List Rule) : Except PyError (OrderedDict String String) :=
  resolve_scopes ips request limiter trust_proxy_headers .empty rules

variable {ips request limiter trust_proxy_headers}

theorem resolve_scope_error {scope_name : String} {e : PyError}
    (herror : resolve_scope ips request limiter trust_proxy_headers scope_name = .error e) :
    ∃ message, e = .value_error message := by
  unfold resolve_scope at herror
  split at herror
  · cases herror
  split at herror
  · cases herror
  split at herror
  · next hresolver =>
    cases herror
    exact Limiter.get_scope_resolver_error hresolver
  · cases herror
    exact ⟨_, rfl⟩
  · split at herror
    · cases herror
    · cases herror
    · split at herror <;> cases herror

theorem resolve_scopes_error {scope_identifiers : OrderedDict String String} {rules : List Rule} {e : PyError}
    (herror : resolve_scopes ips request limiter trust_proxy_headers scope_identifiers rules = .error e) :
    ∃ message, e = .value_error message := by
  induction rules generalizing scope_identifiers with
  | nil => cases herror
  | cons rule rest ih =>
    unfold resolve_scopes at herror
    split at herror
    · exact ih herror
    split at herror
    · next hscope =>
      cases herror
      exact resolve_scope_error hscope
    · exact ih herror

/-- Resolution raises nothing but a ValueError. -/
theorem resolve_scope_identifiers_error {rules : List Rule} {e : PyError}
    (herror : resolve_scope_identifiers ips request limiter trust_proxy_headers rules = .error e) :
    ∃ message, e = .value_error message :=
  resolve_scopes_error herror

/-- The loop keeps what is resolved and resolves the scope of every rule. -/
theorem mem_keys_of_resolve_scopes {scope_identifiers resolved : OrderedDict String String} {rules : List Rule}
    (hok : resolve_scopes ips request limiter trust_proxy_headers scope_identifiers rules = .ok resolved) :
    (∀ scope_name ∈ scope_identifiers.keys, scope_name ∈ resolved.keys) ∧
      ∀ rule ∈ rules, rule.scope ∈ resolved.keys := by
  induction rules generalizing scope_identifiers with
  | nil =>
    cases hok
    exact ⟨fun _ hmem => hmem, fun _ hmem => absurd hmem List.not_mem_nil⟩
  | cons rule rest ih =>
    unfold resolve_scopes at hok
    split at hok
    · next hpresent =>
      obtain ⟨hkept, hrest⟩ := ih hok
      exact ⟨hkept, List.forall_mem_cons.mpr ⟨hkept _ hpresent, hrest⟩⟩
    split at hok
    · cases hok
    · obtain ⟨hkept, hrest⟩ := ih hok
      refine ⟨fun scope_name hmem => ?_, List.forall_mem_cons.mpr ⟨?_, hrest⟩⟩
      · exact hkept scope_name (OrderedDict.mem_keys_set.mpr (Or.inr hmem))
      · exact hkept rule.scope (OrderedDict.mem_keys_set.mpr (Or.inl rfl))

/-- A resolution that returns has an identifier for every rule. -/
theorem resolve_scope_identifiers_identified {rules : List Rule} {scope_identifiers : OrderedDict String String}
    (hok : resolve_scope_identifiers ips request limiter trust_proxy_headers rules = .ok scope_identifiers) :
    ∀ rule ∈ rules, scope_identifiers.get? rule.scope ≠ none := by
  intro rule hmem
  rw [Ne, OrderedDict.get?_eq_none_iff, not_not]
  exact (mem_keys_of_resolve_scopes hok).2 rule hmem

end Scopes

end Addresses

end response_bandwidth_limiter.identity

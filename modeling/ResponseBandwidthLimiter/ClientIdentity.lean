import ResponseBandwidthLimiter.Identity
import Mathlib.Data.Option.Basic
import Mathlib.Data.List.Forall2

open collections
open response_bandwidth_limiter.base response_bandwidth_limiter.ip_manager

namespace response_bandwidth_limiter.identity

/-- What a request says about its client: two headers, the host of
    `request.client`, and the first item of `scope["client"]` as a text. -/
structure ClientRequest where
  x_forwarded_for : Option String
  x_real_ip : Option String
  client_host : Option String
  scope_client : Option String

section Resolution

variable {Address : Type} (ips : IpLibrary Address)

namespace ClientRequest

/-- `client.host`, where it is not empty. -/
def host (self : ClientRequest) : Option String := self.client_host.filter (· ≠ "")

def get_client_identifier (self : ClientRequest) (trust_proxy_headers : Bool) : String :=
  match if trust_proxy_headers then extract_valid_ip ips self.x_forwarded_for else none with
  | some forwarded_ip => forwarded_ip
  | none =>
    match if trust_proxy_headers then extract_valid_ip ips self.x_real_ip else none with
    | some real_ip => real_ip
    | none =>
      match self.host with
      | some host => (extract_valid_ip ips (some host)).getD host
      | none =>
        match self.scope_client with
        | some scope_host => (extract_valid_ip ips (some scope_host)).getD scope_host
        | none => "unknown"

def get_client_ip (self : ClientRequest) (trust_proxy_headers : Bool) : Option String :=
  match if trust_proxy_headers then extract_valid_ip ips self.x_forwarded_for else none with
  | some forwarded_ip => some forwarded_ip
  | none =>
    match if trust_proxy_headers then extract_valid_ip ips self.x_real_ip else none with
    | some real_ip => some real_ip
    | none =>
      match self.host with
      | some host => extract_valid_ip ips (some host)
      | none =>
        match self.scope_client with
        | some scope_host => extract_valid_ip ips (some scope_host)
        | none => none

/-- The request as the other modules see it, with one host for both sources. -/
def http (self : ClientRequest) (scope_resolvers : String → Resolution) : HttpRequest where
  x_forwarded_for := self.x_forwarded_for
  x_real_ip := self.x_real_ip
  client_host := self.host.or self.scope_client
  scope_resolvers := scope_resolvers

variable {ips} {self : ClientRequest} {trust_proxy_headers : Bool}

theorem http_get_client_identifier (scope_resolvers : String → Resolution) :
    identity.get_client_identifier ips (self.http scope_resolvers) trust_proxy_headers =
      self.get_client_identifier ips trust_proxy_headers := by
  unfold identity.get_client_identifier get_proxied_ip get_client_identifier http
  cases trust_proxy_headers with
  | false =>
    cases self.host with
    | some host => rfl
    | none => cases self.scope_client <;> rfl
  | true =>
    simp only [if_true]
    cases extract_valid_ip ips self.x_forwarded_for with
    | some forwarded_ip => rfl
    | none =>
      cases extract_valid_ip ips self.x_real_ip with
      | some real_ip => rfl
      | none =>
        cases self.host with
        | some host => rfl
        | none => cases self.scope_client <;> rfl

theorem http_get_client_ip (scope_resolvers : String → Resolution) :
    identity.get_client_ip ips (self.http scope_resolvers) trust_proxy_headers =
      self.get_client_ip ips trust_proxy_headers := by
  unfold identity.get_client_ip get_proxied_ip get_client_ip http
  cases trust_proxy_headers with
  | false =>
    cases self.host with
    | some host => rfl
    | none => cases self.scope_client <;> rfl
  | true =>
    simp only [if_true]
    cases extract_valid_ip ips self.x_forwarded_for with
    | some forwarded_ip => rfl
    | none =>
      cases extract_valid_ip ips self.x_real_ip with
      | some real_ip => rfl
      | none =>
        cases self.host with
        | some host => rfl
        | none => cases self.scope_client <;> rfl

end ClientRequest

/-- What an entry of a list is read as: an address, or nothing for a blank or
    malformed one. -/
def read_entry (candidate : String) : Option Address :=
  if strip candidate = "" then none else ips.ip_address (strip candidate)

/-- Two values that differ in how their addresses are spelled and in what their
    malformed entries are. -/
def Alike (first second : Option String) : Prop :=
  Option.Rel (fun first second =>
    List.Forall₂ (fun candidate other => read_entry ips candidate = read_entry ips other)
      (split ',' first) (split ',' second)) first second

variable {ips}

/-- The first entry that is read as an address, in its canonical text. -/
theorem extract_valid_ip_some (raw_value : String) :
    extract_valid_ip ips (some raw_value) = ((split ',' raw_value).findSome? (read_entry ips)).map ips.str := by
  rw [extract_valid_ip, Option.bind_some, List.map_findSome?]
  congr 1
  funext candidate
  simp only [read_entry, Function.comp_apply]
  split <;> rfl

theorem findSome?_eq_of_alike {first second : List String}
    (h : List.Forall₂ (fun candidate other => read_entry ips candidate = read_entry ips other) first second) :
    first.findSome? (read_entry ips) = second.findSome? (read_entry ips) := by
  induction h with
  | nil => rfl
  | cons hentry hrest ih => rw [List.findSome?_cons, List.findSome?_cons, hentry, ih]

/-- Spelling does not change what is extracted. -/
theorem Alike.extract_valid_ip_eq {first second : Option String} (h : Alike ips first second) :
    extract_valid_ip ips first = extract_valid_ip ips second := by
  cases h with
  | none => rfl
  | some hentries => rw [extract_valid_ip_some, extract_valid_ip_some, findSome?_eq_of_alike hentries]

/-- What is extracted is the canonical text of an address. -/
theorem exists_address_of_extract {raw_value : Option String} {ip : String}
    (h : extract_valid_ip ips raw_value = some ip) : ∃ address, ips.str address = ip := by
  cases raw_value with
  | none => cases h
  | some raw_value =>
    rw [extract_valid_ip_some] at h
    obtain ⟨address, -, haddress⟩ := Option.map_eq_some_iff.mp h
    exact ⟨address, haddress⟩

theorem Alike.or {first second first_other second_other : Option String} (h : Alike ips first second)
    (hother : Alike ips first_other second_other) : Alike ips (first.or first_other) (second.or second_other) := by
  cases h with
  | none => exact hother
  | some hentries => exact .some hentries

section Requests

variable {request : HttpRequest} {trust_proxy_headers : Bool}

theorem exists_address_of_proxied {ip : String} (h : get_proxied_ip ips request trust_proxy_headers = some ip) :
    ∃ address, ips.str address = ip := by
  unfold get_proxied_ip at h
  split at h
  · rcases Option.or_eq_some_iff.mp h with hforwarded | ⟨-, hreal⟩
    · exact exists_address_of_extract hforwarded
    · exact exists_address_of_extract hreal
  · cases h

/-- The identifier of a client with an address is that address, in its canonical
    text. -/
theorem get_client_identifier_of_ip {ip : String} (hip : get_client_ip ips request trust_proxy_headers = some ip) :
    get_client_identifier ips request trust_proxy_headers = ip ∧ ∃ address, ips.str address = ip := by
  unfold get_client_ip at hip
  unfold get_client_identifier
  cases hproxied : get_proxied_ip ips request trust_proxy_headers with
  | some proxied_ip =>
    rw [hproxied, Option.some_or] at hip
    cases hip
    exact ⟨rfl, exists_address_of_proxied hproxied⟩
  | none =>
    rw [hproxied, Option.none_or] at hip
    refine ⟨?_, exists_address_of_extract hip⟩
    cases hhost : request.client_host with
    | none =>
      rw [hhost] at hip
      cases hip
    | some host =>
      rw [hhost] at hip
      simp only [hip, Option.getD_some]

end Requests

namespace ClientRequest

variable {first second self : ClientRequest} {trust_proxy_headers : Bool}

/-- Two requests that say the same of their clients, up to spelling. -/
structure Alike (ips : IpLibrary Address) (first second : ClientRequest) : Prop where
  x_forwarded_for : identity.Alike ips first.x_forwarded_for second.x_forwarded_for
  x_real_ip : identity.Alike ips first.x_real_ip second.x_real_ip
  host : identity.Alike ips first.host second.host
  scope_client : identity.Alike ips first.scope_client second.scope_client

theorem Alike.get_client_ip_eq (h : Alike ips first second) :
    first.get_client_ip ips trust_proxy_headers = second.get_client_ip ips trust_proxy_headers := by
  rw [← http_get_client_ip fun _ => .raised, ← http_get_client_ip fun _ => .raised]
  have hproxied : get_proxied_ip ips (first.http fun _ => .raised) trust_proxy_headers =
      get_proxied_ip ips (second.http fun _ => .raised) trust_proxy_headers := by
    simp only [get_proxied_ip, http, h.x_forwarded_for.extract_valid_ip_eq, h.x_real_ip.extract_valid_ip_eq]
  rw [identity.get_client_ip, identity.get_client_ip, hproxied]
  exact congrArg _ (h.host.or h.scope_client).extract_valid_ip_eq

/-- Without trust the headers are not read. -/
theorem get_client_ip_untrusted (x_forwarded_for x_real_ip : Option String) :
    { self with x_forwarded_for, x_real_ip }.get_client_ip ips false = self.get_client_ip ips false ∧
      { self with x_forwarded_for, x_real_ip }.get_client_identifier ips false =
        self.get_client_identifier ips false :=
  ⟨rfl, rfl⟩

/-- Any spelling of an address is normalised to its canonical text. -/
theorem normalize_ip_spelling {address : Address} {ip spelling : String} (hip : ips.str address = ip)
    (hspelling : ips.ip_address spelling = some address) :
    normalize_ip ips spelling = .ok ip ∧ normalize_ip ips ip = .ok ip := by
  subst hip
  exact ⟨normalize_ip_of_address hspelling, normalize_ip_of_address (ips.ip_address_str address)⟩

/-- The client's address does not depend on how it is spelled, its identifier and
    the keys of an IP manager agree with it, and without trust the headers have no
    influence. -/
theorem client_identity_canonical (ips : IpLibrary Address) :
    (∀ trust_proxy_headers first second, Alike ips first second →
      first.get_client_ip ips trust_proxy_headers = second.get_client_ip ips trust_proxy_headers) ∧
    (∀ trust_proxy_headers (request : ClientRequest) ip, request.get_client_ip ips trust_proxy_headers = some ip →
      request.get_client_identifier ips trust_proxy_headers = ip ∧
      ∃ address, ips.str address = ip ∧ ∀ spelling, ips.ip_address spelling = some address →
        normalize_ip ips spelling = .ok ip ∧ normalize_ip ips ip = .ok ip ∧
        ∀ (S V : Type) [PyValue V] (storage : Storage S V) (self : S) (duration : Option ℤ),
          block_ip ips storage self spelling duration =
            storage.set self (Control.block.key ips address) (PyValue.str "1") duration ∧
          allow_ip ips storage self spelling =
            storage.set self (Control.allow.key ips address) (PyValue.str "1") none ∧
          (is_blocked ips storage self ip).1 =
            (storage.get self (Control.block.key ips address)).1.map (fun value => !PyValue.is_none value) ∧
          (is_allowed ips storage self ip).1 =
            (storage.get self (Control.allow.key ips address)).1.map (fun value => !PyValue.is_none value)) ∧
    ∀ (request : ClientRequest) x_forwarded_for x_real_ip,
      { request with x_forwarded_for, x_real_ip }.get_client_ip ips false = request.get_client_ip ips false ∧
        { request with x_forwarded_for, x_real_ip }.get_client_identifier ips false =
          request.get_client_identifier ips false := by
  refine ⟨fun trust_proxy_headers first second h => h.get_client_ip_eq, ?_,
    fun request x_forwarded_for x_real_ip => get_client_ip_untrusted x_forwarded_for x_real_ip⟩
  intro trust_proxy_headers request ip hip
  rw [← http_get_client_ip fun _ => .raised] at hip
  rw [← http_get_client_identifier fun _ => .raised]
  obtain ⟨hidentifier, address, haddress⟩ := get_client_identifier_of_ip hip
  refine ⟨hidentifier, address, haddress, fun spelling hspelling => ?_⟩
  obtain ⟨hnormal, hcanonical⟩ := normalize_ip_spelling haddress hspelling
  have hread : ips.ip_address ip = some address := haddress ▸ ips.ip_address_str address
  refine ⟨hnormal, hcanonical, fun S V _ storage self duration => ⟨?_, ?_, ?_, ?_⟩⟩
  · rw [block_ip, put_control, hnormal, ← haddress]
    rfl
  · rw [allow_ip, put_control, hnormal, ← haddress]
    rfl
  · exact has_control_of_address hread storage self .block
  · exact has_control_of_address hread storage self .allow

/-- A request with a spelling that is not the canonical one, behind a malformed
    entry. -/
def forwarded (spelling : String) : ClientRequest where
  x_forwarded_for := some ("unknown, " ++ spelling)
  x_real_ip := none
  client_host := some "192.0.2.1"
  scope_client := none

theorem forwarded_canonical :
    (forwarded "2001:DB8::0:1").get_client_ip .documentation true =
        (forwarded "2001:db8::1").get_client_ip .documentation true ∧
      (forwarded "2001:DB8::0:1").get_client_identifier .documentation true = "2001:db8::1" := by
  obtain ⟨hspelling, hidentifier, -⟩ := client_identity_canonical .documentation
  refine ⟨hspelling true _ _ ⟨.some ?_, .none, .some ?_, .none⟩, (hidentifier true _ _ ?_).1⟩
  · decide +kernel
  · decide +kernel
  · decide +kernel

end ClientRequest

end Resolution

end response_bandwidth_limiter.identity

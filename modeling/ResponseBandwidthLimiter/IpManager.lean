import ResponseBandwidthLimiter.Backends.Operations
import Mathlib.Data.Option.Basic

open collections
open response_bandwidth_limiter.base

namespace response_bandwidth_limiter.ip_manager

/-- What the code uses of `ipaddress`: reading an address, and its text, which
    reads back as the same address. -/
structure IpLibrary (Address : Type) where
  ip_address : String → Option Address
  str : Address → String
  ip_address_str : ∀ address, ip_address (str address) = some address

variable {Address S V : Type}

/-- Equal texts denote equal addresses. -/
theorem IpLibrary.str_injective (lib : IpLibrary Address) {first second : Address}
    (h : lib.str first = lib.str second) : first = second := by
  have hread := lib.ip_address_str first
  rw [h, lib.ip_address_str, Option.some.injEq] at hread
  exact hread.symm

/-- Two documentation addresses. -/
inductive DocumentationAddress where
  | v4
  | v6
  deriving DecidableEq, Repr

/-- `ipaddress` on the texts of two addresses, one of them with a second
    spelling. -/
def IpLibrary.documentation : IpLibrary DocumentationAddress where
  ip_address text :=
    if text = "192.0.2.1" then some .v4
    else if text = "2001:db8::1" ∨ text = "2001:DB8::0:1" then some .v6
    else none
  str
    | .v4 => "192.0.2.1"
    | .v6 => "2001:db8::1"
  ip_address_str address := by cases address <;> decide

def normalize_ip (lib : IpLibrary Address) (ip : String) : Except PyError String :=
  match lib.ip_address ip with
  | none => .error (.value_error "ip must be a valid IP address.")
  | some address => .ok (lib.str address)

theorem normalize_ip_of_address {lib : IpLibrary Address} {ip : String} {address : Address}
    (haddress : lib.ip_address ip = some address) : normalize_ip lib ip = .ok (lib.str address) := by
  simp [normalize_ip, haddress]

def BLOCK_BEGINNING : String := "ip:block:"

def ALLOW_BEGINNING : String := "ip:allow:"

section Manager

variable [PyValue V] (lib : IpLibrary Address) (storage : Storage S V)

/-- Writing the entry of an address under one of the two beginnings. -/
def put_control (beginning : String) (self : S) (ip : String) (duration : Option ℤ) : Except PyError Unit × S :=
  match normalize_ip lib ip with
  | .error e => (.error e, self)
  | .ok normalized_ip => storage.set self (beginning ++ normalized_ip) (PyValue.str "1") duration

def drop_control (beginning : String) (self : S) (ip : String) : Except PyError Unit × S :=
  match normalize_ip lib ip with
  | .error e => (.error e, self)
  | .ok normalized_ip => storage.delete self (beginning ++ normalized_ip)

def has_control (beginning : String) (self : S) (ip : String) : Except PyError Bool × S :=
  match normalize_ip lib ip with
  | .error e => (.error e, self)
  | .ok normalized_ip =>
    match storage.get self (beginning ++ normalized_ip) with
    | (.error e, self) => (.error e, self)
    | (.ok value, self) => (.ok (!PyValue.is_none value), self)

def block_ip (self : S) (ip : String) (duration : Option ℤ) : Except PyError Unit × S :=
  put_control lib storage BLOCK_BEGINNING self ip duration

def unblock_ip (self : S) (ip : String) : Except PyError Unit × S :=
  drop_control lib storage BLOCK_BEGINNING self ip

def is_blocked (self : S) (ip : String) : Except PyError Bool × S :=
  has_control lib storage BLOCK_BEGINNING self ip

def allow_ip (self : S) (ip : String) : Except PyError Unit × S :=
  put_control lib storage ALLOW_BEGINNING self ip none

def remove_allow (self : S) (ip : String) : Except PyError Unit × S :=
  drop_control lib storage ALLOW_BEGINNING self ip

def is_allowed (self : S) (ip : String) : Except PyError Bool × S :=
  has_control lib storage ALLOW_BEGINNING self ip

end Manager

/-- The two kinds of entries an IP manager keeps for an address. -/
inductive Control where
  | block
  | allow
  deriving DecidableEq, Repr

def Control.beginning : Control → String
  | .block => BLOCK_BEGINNING
  | .allow => ALLOW_BEGINNING

def Control.key (lib : IpLibrary Address) (self : Control) (address : Address) : String :=
  self.beginning ++ lib.str address

private theorem block_beginning_ne_allow (first second : String) :
    BLOCK_BEGINNING ++ first ≠ ALLOW_BEGINNING ++ second := by
  intro heq
  have hblock := starts_with_append BLOCK_BEGINNING first
  rw [heq] at hblock
  rcases starts_with_comparable hblock (starts_with_append ALLOW_BEGINNING second) with h | h <;>
    revert h <;> decide

/-- Distinct controls and distinct addresses have distinct keys. -/
theorem Control.key_injective {lib : IpLibrary Address} {first second : Control} {source target : Address}
    (h : first.key lib source = second.key lib target) : first = second ∧ source = target := by
  cases first <;> cases second
  · exact ⟨rfl, lib.str_injective (append_left_injective h)⟩
  · exact absurd h (block_beginning_ne_allow _ _)
  · exact absurd h.symm (block_beginning_ne_allow _ _)
  · exact ⟨rfl, lib.str_injective (append_left_injective h)⟩

/-- A lookup answers whether a value is found under the control's key. -/
theorem has_control_of_address [PyValue V] {lib : IpLibrary Address} {ip : String} {address : Address}
    (haddress : lib.ip_address ip = some address) (storage : Storage S V) (self : S) (control : Control) :
    (has_control lib storage control.beginning self ip).1 =
      (storage.get self (control.key lib address)).1.map (fun value => !PyValue.is_none value) := by
  rw [has_control, normalize_ip_of_address haddress]
  change (match storage.get self (control.key lib address) with
    | (.error e, self) => (Except.error e, self)
    | (.ok value, self) => (.ok (!PyValue.is_none value), self)).1 = _
  obtain ⟨result, next⟩ := storage.get self (control.key lib address)
  cases result <;> rfl

/-- A lookup leaves what reading the value leaves. -/
theorem has_control_state [PyValue V] {lib : IpLibrary Address} {ip : String} {address : Address}
    (haddress : lib.ip_address ip = some address) (storage : Storage S V) (self : S) (control : Control) :
    (has_control lib storage control.beginning self ip).2 = (storage.get self (control.key lib address)).2 := by
  rw [has_control, normalize_ip_of_address haddress]
  change (match storage.get self (control.key lib address) with
    | (.error e, self) => (Except.error e, self)
    | (.ok value, self) => (.ok (!PyValue.is_none value), self)).2 = _
  obtain ⟨result, next⟩ := storage.get self (control.key lib address)
  cases result <;> rfl

/-- Every key of an IP manager is marked as a control key. -/
theorem Control.key_starts_with (lib : IpLibrary Address) (self : Control) (address : Address) :
    starts_with (self.key lib address) "ip:" = true := by
  have hbeginning : ("ip:").toList <+: self.beginning.toList := by cases self <;> decide
  rw [starts_with_iff, Control.key, String.toList_append]
  exact hbeginning.trans (List.prefix_append _ _)

/-- The calls on an IP manager. -/
inductive IpOperation where
  | block_ip (ip : String) (duration : Option ℤ)
  | unblock_ip (ip : String)
  | allow_ip (ip : String)
  | remove_allow (ip : String)
  | is_blocked (ip : String)
  | is_allowed (ip : String)

namespace IpOperation

/-- The control a call sets, the text of the address, and the duration. -/
def sets : IpOperation → Option (Control × String × Option ℤ)
  | .block_ip ip duration => some (.block, ip, duration)
  | .allow_ip ip => some (.allow, ip, none)
  | _ => none

/-- The control a call clears, with the text of the address. -/
def clears : IpOperation → Option (Control × String)
  | .unblock_ip ip => some (.block, ip)
  | .remove_allow ip => some (.allow, ip)
  | _ => none

/-- The control a call asks for, with the text of the address. -/
def asks : IpOperation → Option (Control × String)
  | .is_blocked ip => some (.block, ip)
  | .is_allowed ip => some (.allow, ip)
  | _ => none

theorem sets_or_clears_or_asks (self : IpOperation) :
    (∃ control ip duration, self.sets = some (control, ip, duration)) ∨
      (self.sets = none ∧ ∃ control ip, self.clears = some (control, ip)) ∨
      (self.sets = none ∧ self.clears = none ∧ ∃ control ip, self.asks = some (control, ip)) := by
  cases self <;> simp [sets, clears, asks]

end IpOperation

section Calls

variable [PyValue V] {lib : IpLibrary Address}

/-- A call on an IP manager over a storage. -/
def manage (lib : IpLibrary Address) (storage : Storage S V) (self : S) :
    IpOperation → Except PyError (Reply V) × S
  | .block_ip ip duration =>
    let (result, self) := block_ip lib storage self ip duration
    (result.map (fun _ => .done), self)
  | .unblock_ip ip =>
    let (result, self) := unblock_ip lib storage self ip
    (result.map (fun _ => .done), self)
  | .allow_ip ip =>
    let (result, self) := allow_ip lib storage self ip
    (result.map (fun _ => .done), self)
  | .remove_allow ip =>
    let (result, self) := remove_allow lib storage self ip
    (result.map (fun _ => .done), self)
  | .is_blocked ip =>
    let (result, self) := is_blocked lib storage self ip
    (result.map .answer, self)
  | .is_allowed ip =>
    let (result, self) := is_allowed lib storage self ip
    (result.map .answer, self)

theorem manage_of_sets {operation : IpOperation} {control : Control} {ip : String} {duration : Option ℤ}
    (hsets : operation.sets = some (control, ip, duration)) (storage : Storage S V) (self : S) :
    manage lib storage self operation =
      ((put_control lib storage control.beginning self ip duration).1.map (fun _ => .done),
        (put_control lib storage control.beginning self ip duration).2) := by
  cases operation <;> cases hsets <;> rfl

theorem manage_of_clears {operation : IpOperation} {control : Control} {ip : String}
    (hclears : operation.clears = some (control, ip)) (storage : Storage S V) (self : S) :
    manage lib storage self operation =
      ((drop_control lib storage control.beginning self ip).1.map (fun _ => .done),
        (drop_control lib storage control.beginning self ip).2) := by
  cases operation <;> cases hclears <;> rfl

theorem manage_of_asks {operation : IpOperation} {control : Control} {ip : String}
    (hasks : operation.asks = some (control, ip)) (storage : Storage S V) (self : S) :
    manage lib storage self operation =
      ((has_control lib storage control.beginning self ip).1.map .answer,
        (has_control lib storage control.beginning self ip).2) := by
  cases operation <;> cases hasks <;> rfl

end Calls

end response_bandwidth_limiter.ip_manager

import ResponseBandwidthLimiter.Backends.Redis.Script
import ResponseBandwidthLimiter.Collections.ExpiringMap
import Mathlib.Logic.Function.Basic

open collections
open response_bandwidth_limiter.base

namespace response_bandwidth_limiter.redis

/-- What a key of the server holds. -/
inductive RedisValue where
  | text (content : String)
  | sorted_set (content : Counter)

/-- The keyspace, each key with its expiry. -/
abbrev Server := String → Option (Timed RedisValue ℚ)

/-- Whether a command never reached the server, or its reply was lost, or
    neither. -/
inductive Fault where
  | none
  | before
  | after
  deriving DecidableEq, Repr

/-- What one call of the client meets: the server's clock, the sorted sets
    whose removal the server has not come round to, and a possible fault. -/
structure Contact where
  server_time : ℚ
  spared : String → Bool
  fault : Fault

namespace Server

/-- A text lasts through the time of its expiry and is gone afterwards; a sorted
    set that has come to it may linger. -/
def expire_keys (self : Server) (contact : Contact) : Server := fun key =>
  match self key with
  | none => none
  | some entry =>
    match entry.value with
    | .text _ => if entry.lasts contact.server_time then some entry else none
    | .sorted_set _ => if entry.alive contact.server_time || contact.spared key then some entry else none

theorem expire_keys_of_text {self : Server} {key content : String} {expires_at : Option ℚ}
    (hentry : self key = some ⟨.text content, expires_at⟩) (contact : Contact) :
    self.expire_keys contact key = lasting contact.server_time (self key) := by
  simp only [expire_keys, hentry, lasting, Option.filter_some]

/-- An entry stays or, once expired, is removed. -/
theorem expire_keys_of_some {self : Server} {key : String} {entry : Timed RedisValue ℚ}
    (hentry : self key = some entry) (contact : Contact) :
    self.expire_keys contact key = some entry ∨
      (self.expire_keys contact key = none ∧ entry.alive contact.server_time = false) := by
  obtain ⟨value, expires_at⟩ := entry
  cases value with
  | text content =>
    rw [expire_keys_of_text hentry, hentry]
    cases hlasts : Timed.lasts contact.server_time (⟨.text content, expires_at⟩ : Timed RedisValue ℚ) with
    | true => exact Or.inl (lasting_some_of_lasts hlasts)
    | false =>
      refine Or.inr ⟨lasting_some_of_not_lasts hlasts, Bool.eq_false_iff.mpr fun halive => ?_⟩
      rw [Timed.lasts_of_alive halive] at hlasts
      cases hlasts
  | sorted_set content =>
    cases hkept : Timed.alive contact.server_time (⟨.sorted_set content, expires_at⟩ : Timed RedisValue ℚ) ||
        contact.spared key with
    | true => exact Or.inl (by simp only [expire_keys, hentry, hkept, if_true])
    | false =>
      refine Or.inr ⟨by simp only [expire_keys, hentry, hkept, Bool.false_eq_true, if_false], ?_⟩
      exact (Bool.or_eq_false_iff.mp hkept).1

/-- A command: its reply, none when it fails, and what it leaves. -/
abbrev Command (R : Type) := Server → Option R × Server

def get (key : String) : Command (Option String) := fun self =>
  match self key with
  | none => (some none, self)
  | some ⟨.text content, _⟩ => (some (some content), self)
  | some ⟨.sorted_set _, _⟩ => (none, self)

/-- `SET key content [EX ex]`. -/
def set (now : ℚ) (key content : String) (ex : Option ℤ) : Command Unit := fun self =>
  match ex with
  | none => (some (), Function.update self key (some ⟨.text content, none⟩))
  | some seconds =>
    if seconds ≤ 0 then (none, self)
    else (some (), Function.update self key (some ⟨.text content, some (now + seconds)⟩))

/-- A text that is a 64 bit integer in its canonical form. -/
def integer (content : String) : Option ℤ :=
  match content.toInt? with
  | none => none
  | some value => if toString value = content ∧ -2 ^ 63 ≤ value ∧ value < 2 ^ 63 then some value else none

def incr (key : String) : Command ℤ := fun self =>
  match self key with
  | none => (some 1, Function.update self key (some ⟨.text "1", none⟩))
  | some ⟨.text content, expires_at⟩ =>
    match integer content with
    | none => (none, self)
    | some value =>
      if value + 1 < 2 ^ 63 then
        (some (value + 1), Function.update self key (some ⟨.text (toString (value + 1)), expires_at⟩))
      else (none, self)
  | some ⟨.sorted_set _, _⟩ => (none, self)

def expire (now : ℚ) (key : String) (seconds : ℤ) : Command Unit := fun self =>
  match self key with
  | none => (some (), self)
  | some entry =>
    if seconds ≤ 0 then (some (), Function.update self key none)
    else (some (), Function.update self key (some { entry with expires_at := some (now + seconds) }))

def delete (key : String) : Command Unit := fun self => (some (), Function.update self key none)

/-- `MULTI`, `INCR`, `EXPIRE`, `EXEC`: both run, and the first failure is
    raised. -/
def incr_expire (now : ℚ) (key : String) (seconds : ℤ) : Command ℤ := fun self =>
  let (current, counted) := incr key self
  (current, (expire now key seconds counted).2)

/-- The stored counter of a key, empty when the key is missing, and none when
    the key holds a text. -/
def counter (self : Server) (key : String) : Option Counter :=
  match self key with
  | none => some .empty
  | some ⟨.sorted_set content, _⟩ => some content
  | some ⟨.text _, _⟩ => none

/-- `EVAL SLIDING_WINDOW_SCRIPT`. -/
def eval (numerals : Numerals) (now : ℚ) (key : String) (window_seconds : ℤ) (member : String)
    (max_hits : ℤ) : Command ScriptReply := fun self =>
  match self.counter key with
  | none => (none, self)
  | some counter =>
    let (reply, stored, seconds) := sliding_window_script numerals now counter window_seconds member max_hits
    (some reply, Function.update self key (some ⟨.sorted_set stored, some (now + seconds)⟩))

/-- A command as the client runs it. It raises on a fault and when the command
    fails, and a command whose reply was lost has been run. -/
def call {R : Type} (self : Server) (contact : Contact) (command : Command R) : Option R × Server :=
  match contact.fault with
  | .none => command (self.expire_keys contact)
  | .before => (none, self.expire_keys contact)
  | .after => (none, (command (self.expire_keys contact)).2)

theorem call_of_healthy {R : Type} {self : Server} {contact : Contact} (hhealthy : contact.fault = .none)
    (command : Command R) : self.call contact command = command (self.expire_keys contact) := by
  simp [call, hhealthy]

theorem eval_of_counter {self : Server} {key : String} {counter : Counter}
    (hcounter : self.counter key = some counter) (numerals : Numerals) (now : ℚ) (window_seconds : ℤ)
    (member : String) (max_hits : ℤ) :
    eval numerals now key window_seconds member max_hits self =
      let result := sliding_window_script numerals now counter window_seconds member max_hits
      (some result.1,
        Function.update self key (some ⟨.sorted_set result.2.1, some (now + result.2.2)⟩)) := by
  simp [eval, hcounter]

end Server

end response_bandwidth_limiter.redis

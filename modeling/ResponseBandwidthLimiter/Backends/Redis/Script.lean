import ResponseBandwidthLimiter.Backends.Base
import ResponseBandwidthLimiter.Collections.SortedSet
import Mathlib.Data.String.Basic

open collections
open response_bandwidth_limiter.base

namespace response_bandwidth_limiter.redis

/-- The members and scores of one counter. Members are the identifiers drawn
    for the hits, scores their times. -/
abbrev Counter := SortedSet String ℚ

/-- How numbers turn into text on their way through Redis, each text given by
    the number it denotes: as an argument of `redis.call`, as a `WITHSCORES`
    reply, and by Lua's `tostring`. -/
structure Numerals where
  argument : ℚ → ℚ
  score : ℚ → ℚ
  tostring : ℚ → ℚ

/-- Arguments and scores keep their value; `tostring` may not. -/
def Numerals.exact (tostring : ℚ → ℚ) : Numerals where
  argument := id
  score := id
  tostring := tostring

/-- A text in the reply of the script. -/
inductive ReplyText where
  | number (value : ℚ)
  | empty
  | nil
  deriving DecidableEq, Repr

structure ScriptReply where
  hit_count : Nat
  texts : List ReplyText
  deriving DecidableEq, Repr

/-- `tostring(reply[2])` for the reply of a `ZRANGE` by rank. -/
def tostring_score (numerals : Numerals) (score : Option ℚ) : ReplyText :=
  match score with
  | none => .nil
  | some value => .number (numerals.score value)

/-- `SLIDING_WINDOW_SCRIPT` at a reading of `TIME`: the reply, the counter it
    leaves, and the seconds it passes to `EXPIRE`. -/
def sliding_window_script (numerals : Numerals) (now : ℚ) (counter : Counter) (window_seconds : ℤ)
    (member : String) (max_hits : ℤ) : ScriptReply × Counter × ℤ :=
  let threshold := now - window_seconds
  let kept := counter.zremrangebyscore (numerals.argument threshold)
  let stored :=
    if max_hits ≤ 0 ∨ (kept.zcard : ℤ) < max_hits then kept.zadd (numerals.argument now) member else kept
  let hit_count := stored.zcard
  let oldest := stored.zrange_score 0
  let retry_index := if 1 < max_hits ∧ max_hits ≤ hit_count then ((hit_count : ℤ) - max_hits + 1).toNat else 0
  let retry := stored.zrange_score retry_index
  let texts :=
    match oldest with
    | some score =>
      [.number (numerals.score score), .number (numerals.tostring now), tostring_score numerals retry]
    | none => [.empty, .number (numerals.tostring now)]
  (⟨hit_count, texts⟩, stored, max 1 window_seconds)

/-- `float(text)`. -/
def float (text : ReplyText) : Except PyError ℚ :=
  match text with
  | .number value => .ok value
  | .empty => .error (.value_error "could not convert string to float: ''")
  | .nil => .error (.value_error "could not convert string to float: 'nil'")

/-- `float(text) if text else None`. -/
def float_or_none (text : ReplyText) : Except PyError (Option ℚ) :=
  match text with
  | .empty => .ok none
  | _ => (float text).map some

def parse_hit_result (reply : ScriptReply) : Except PyError SlidingWindowResult :=
  match reply.texts with
  | oldest_raw :: current_raw :: rest => do
    let oldest_timestamp ← float_or_none oldest_raw
    let current_timestamp ← float current_raw
    let retry_after_timestamp ← (rest.head?).elim (.ok none) float_or_none
    return { hit_count := reply.hit_count, oldest_timestamp, current_timestamp, retry_after_timestamp }
  | _ => .error (.runtime_error "Redis script returned an unexpected result.")

end response_bandwidth_limiter.redis

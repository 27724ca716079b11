import Mathlib.Algebra.BigOperators.Group.List.Basic
import Mathlib.Algebra.Order.Floor.Ring
import Mathlib.Data.Rat.Floor
import Mathlib.Tactic.Linarith
import Mathlib.Tactic.NormNum
import Mathlib.Tactic.SplitIfs

namespace response_bandwidth_limiter.streaming

inductive StreamingError where
  | streaming_aborted_error (message : String)
  | value_error (message : String)
  deriving DecidableEq, Repr

/-- The error of a check that finds the abort. -/
def aborted_error : StreamingError := .streaming_aborted_error "Response streaming was aborted."

/-- What a limited response does while it is sent. -/
inductive Effect (M : Type) where
  | sleep (seconds : ℚ)
  | send (message : M)
  deriving DecidableEq

/-- The total sleep of some effects. -/
def slept {M : Type} : List (Effect M) → ℚ
  | [] => 0
  | .sleep seconds :: rest => seconds + slept rest
  | .send _ :: rest => slept rest

/-- The messages sent by some effects, in order. -/
def sent {M : Type} : List (Effect M) → List M
  | [] => []
  | .sleep _ :: rest => sent rest
  | .send message :: rest => message :: sent rest

theorem slept_append {M : Type} (first second : List (Effect M)) :
    slept (first ++ second) = slept first + slept second := by
  induction first with
  | nil => simp [slept]
  | cons effect rest ih => cases effect <;> simp [slept, ih, add_assoc]

theorem sent_append {M : Type} (first second : List (Effect M)) :
    sent (first ++ second) = sent first ++ sent second := by
  induction first with
  | nil => rfl
  | cons effect rest ih => cases effect <;> simp [sent, ih]

/-- What a response has done so far, and how often it asked about a shutdown. -/
structure Transcript (M : Type) where
  checks : Nat
  effects : List (Effect M)

/-- A piece of a response: it runs to its end or raises, and leaves a
    transcript behind either way. -/
structure Streaming (M A : Type) where
  run : Transcript M → Except StreamingError A × Transcript M

namespace Streaming

variable {M A B : Type}

instance : Monad (Streaming M) where
  pure value := ⟨fun self => (.ok value, self)⟩
  bind first next := ⟨fun self =>
    match first.run self with
    | (.ok value, self) => (next value).run self
    | (.error e, self) => (.error e, self)⟩

def raise (e : StreamingError) : Streaming M A := ⟨fun self => (.error e, self)⟩

def perform (effect : Effect M) : Streaming M Unit :=
  ⟨fun self => (.ok (), { self with effects := self.effects ++ [effect] })⟩

/-- The answer of a check, of which all questions so far are the earlier ones. -/
def ask (check : Nat → Bool) : Streaming M Bool :=
  ⟨fun self => (.ok (check self.checks), { self with checks := self.checks + 1 })⟩

/-- A piece that runs to its end hands its value and its transcript on. -/
theorem run_bind_of_ok {first : Streaming M A} {next : A → Streaming M B} {self later : Transcript M} {value : A}
    (hfirst : first.run self = (.ok value, later)) : (first >>= next).run self = (next value).run later := by
  change (match first.run self with
    | (.ok value, self) => (next value).run self
    | (.error e, self) => (.error e, self)) = _
  rw [hfirst]

theorem run_bind_of_error {first : Streaming M A} {next : A → Streaming M B} {self later : Transcript M}
    {e : StreamingError} (hfirst : first.run self = (.error e, later)) :
    (first >>= next).run self = (.error e, later) := by
  change (match first.run self with
    | (.ok value, self) => (next value).run self
    | (.error e, self) => (.error e, self)) = _
  rw [hfirst]

theorem bind_assoc {C : Type} (first : Streaming M A) (second : A → Streaming M B) (third : B → Streaming M C) :
    first >>= second >>= third = first >>= fun value => second value >>= third := by
  refine congrArg Streaming.mk (funext fun self => ?_)
  simp only [bind]
  rcases first.run self with ⟨outcome, later⟩
  cases outcome <;> rfl

end Streaming

structure ResponseStreamer where
  chunk_size : ℤ
  chunk_size_pos : 0 < chunk_size

def ResponseStreamer.init (chunk_size : ℤ) : Except StreamingError ResponseStreamer :=
  if h : 0 < chunk_size then .ok ⟨chunk_size, h⟩
  else .error (.value_error "chunk_size must be greater than 0.")

def abort_poll_interval : ℚ := 1 / 10

/-- The two questions about a shutdown, each none where the caller gives none. -/
structure Checks where
  abort_check : Option (Nat → Bool)
  poll_check : Option (Nat → Bool)

variable {M : Type}

def check_abort (checks : Checks) : Streaming M Unit :=
  match checks.abort_check with
  | none => pure ()
  | some abort_check => do
    if ← .ask abort_check then
      .raise (.streaming_aborted_error "Response streaming was aborted.")

/-- Every slice brings the end of a sleep nearer. -/
theorem sleep_slices_decreasing {remaining : ℚ} (hpos : 0 < remaining) :
    ⌈(remaining - min abort_poll_interval remaining) / abort_poll_interval⌉.toNat <
      ⌈remaining / abort_poll_interval⌉.toNat := by
  have hinterval : (0 : ℚ) < abort_poll_interval := by norm_num [abort_poll_interval]
  have hceil : 0 < ⌈remaining / abort_poll_interval⌉ := Int.ceil_pos.mpr (div_pos hpos hinterval)
  rcases le_total remaining abort_poll_interval with hle | hle
  · rw [min_eq_right hle, sub_self, zero_div, Int.ceil_zero]
    omega
  · rw [min_eq_left hle, sub_div, div_self hinterval.ne', Int.ceil_sub_one]
    omega

/-- The loop over what remains of a sleep. -/
def sleep_slices (checks : Checks) (remaining : ℚ) : Streaming M Unit :=
  if 0 < remaining then do
    let sleep_duration := min abort_poll_interval remaining
    .perform (.sleep sleep_duration)
    check_abort checks
    sleep_slices checks (remaining - sleep_duration)
  else pure ()
termination_by ⌈remaining / abort_poll_interval⌉.toNat
decreasing_by exact sleep_slices_decreasing ‹0 < remaining›

def sleep_with_abort_check (checks : Checks) (duration : ℚ) : Streaming M Unit :=
  if duration ≤ 0 then pure ()
  else
    match checks.abort_check with
    | none => .perform (.sleep duration)
    | some _ => do
      let polled ← checks.poll_check.elim (pure false) .ask
      if polled then sleep_slices checks duration
      else do
        .perform (.sleep duration)
        check_abort checks

/-- The loop of `yield_limited_chunks` over the positions of the parts.
    `consume` is what the caller does with a part, with the variables it keeps. -/
def yield_parts {S : Type} (checks : Checks) (chunk : List UInt8) (max_rate : ℤ) (effective_chunk_size : Nat)
    (consume : S → List UInt8 → Streaming M S) : List Nat → S → Streaming M S
  | [], state => pure state
  | index :: rest, state => do
    check_abort checks
    let part := (chunk.drop index).take effective_chunk_size
    sleep_with_abort_check checks (part.length / max_rate)
    check_abort checks
    let state ← consume state part
    yield_parts checks chunk max_rate effective_chunk_size consume rest state

/-- `range(0, length, step)` for a positive step. -/
def range (length step : Nat) : List Nat := List.range' 0 ((length + step - 1) / step) step

/-- The parts of a chunk at some positions. -/
def parts (chunk : List UInt8) (size : Nat) (indexes : List Nat) : List (List UInt8) :=
  indexes.map (fun index => (chunk.drop index).take size)

private theorem parts_range' {chunk : List UInt8} {size : Nat} (hsize : 0 < size) (count start : Nat)
    (hcount : (chunk.length - start + size - 1) / size = count) :
    (parts chunk size (List.range' start count size)).flatten = chunk.drop start ∧
      ∀ part ∈ parts chunk size (List.range' start count size), part ≠ [] ∧ part.length ≤ size := by
  induction count generalizing start with
  | zero =>
    have hstart : chunk.length ≤ start := by
      have hlt := (Nat.div_eq_zero_iff_lt hsize).mp hcount
      omega
    exact ⟨by simp [parts, List.drop_eq_nil_of_le hstart], by simp [parts]⟩
  | succ count ih =>
    have hstart : start < chunk.length := by
      by_contra hge
      rw [Nat.div_eq_of_lt (by omega)] at hcount
      exact absurd hcount (by omega)
    have hrest : (chunk.length - (start + size) + size - 1) / size = count := by
      rw [show chunk.length - start + size - 1 = (chunk.length - start - 1) + size by omega,
        Nat.add_div_right _ hsize, Nat.add_right_cancel_iff] at hcount
      by_cases hlong : size ≤ chunk.length - start
      · rwa [show chunk.length - (start + size) + size - 1 = chunk.length - start - 1 by omega]
      · rw [Nat.div_eq_of_lt (by omega)] at hcount ⊢
        exact hcount
    obtain ⟨hflatten, hparts⟩ := ih (start + size) hrest
    constructor
    · change (chunk.drop start).take size ++ (parts chunk size (List.range' (start + size) count size)).flatten = _
      rw [hflatten, ← List.drop_drop, List.take_append_drop]
    · intro part hpart
      obtain rfl | hpart := List.mem_cons.mp hpart
      · refine ⟨?_, List.length_take_le _ _⟩
        rw [← List.length_pos_iff, List.length_take, List.length_drop]
        omega
      · exact hparts part hpart

/-- The parts at the positions of `range` make up the chunk. -/
theorem parts_range (chunk : List UInt8) {size : Nat} (hsize : 0 < size) :
    (parts chunk size (range chunk.length size)).flatten = chunk ∧
      ∀ part ∈ parts chunk size (range chunk.length size), part ≠ [] ∧ part.length ≤ size :=
  parts_range' hsize _ 0 rfl

def effective_chunk_size (self : ResponseStreamer) (max_rate : ℤ) : Nat :=
  (max 1 (min self.chunk_size max_rate)).toNat

def yield_limited_chunks {S : Type} (self : ResponseStreamer) (checks : Checks) (chunk : List UInt8)
    (max_rate : ℤ) (consume : S → List UInt8 → Streaming M S) (state : S) : Streaming M S :=
  if max_rate ≤ 0 then .raise (.value_error "max_rate must be greater than 0.")
  else
    yield_parts checks chunk max_rate (effective_chunk_size self max_rate) consume
      (range chunk.length (effective_chunk_size self max_rate)) state

/-- No question about an abort is ever answered yes. -/
def Checks.Unaborted (self : Checks) : Prop := ∀ abort_check ∈ self.abort_check, ∀ n, abort_check n = false

section Unaborted

variable {checks : Checks}

theorem check_abort_run (hunaborted : checks.Unaborted) (self : Transcript M) :
    ∃ later, (check_abort checks).run self = (.ok (), later) ∧ later.effects = self.effects := by
  unfold check_abort
  cases habort : checks.abort_check with
  | none => exact ⟨self, rfl, rfl⟩
  | some abort_check =>
    have hask : (Streaming.ask abort_check).run self = (.ok false, { self with checks := self.checks + 1 }) := by
      simp [Streaming.ask, hunaborted abort_check habort]
    exact ⟨_, Streaming.run_bind_of_ok hask, rfl⟩

/-- The slices of a sleep add up to it. -/
theorem sleep_slices_run (hunaborted : checks.Unaborted) (remaining : ℚ) (hremaining : 0 ≤ remaining)
    (self : Transcript M) :
    ∃ later added, (sleep_slices checks remaining).run self = (.ok (), later) ∧
      later.effects = self.effects ++ added ∧ sent added = [] ∧ slept added = remaining := by
  induction remaining using sleep_slices.induct generalizing self with
  | case1 remaining hpos slice ih =>
    have hperform : (Streaming.perform (.sleep slice)).run self =
        (.ok (), { self with effects := self.effects ++ [.sleep slice] }) := rfl
    obtain ⟨checked, hcheck, hchecked⟩ :=
      check_abort_run hunaborted { self with effects := self.effects ++ [.sleep slice] }
    obtain ⟨later, added, hrest, hadded, hsent, hslept⟩ := ih (by simp [slice]) checked
    refine ⟨later, .sleep slice :: added, ?_, ?_, hsent, ?_⟩
    · rw [sleep_slices, if_pos hpos, Streaming.run_bind_of_ok hperform, Streaming.run_bind_of_ok hcheck, hrest]
    · rw [hadded, hchecked, List.append_assoc, List.singleton_append]
    · rw [slept, hslept, add_sub_cancel]
  | case2 remaining hpos =>
    have hzero : remaining = 0 := le_antisymm (not_lt.mp hpos) hremaining
    refine ⟨self, [], ?_, by simp, rfl, hzero.symm⟩
    rw [sleep_slices, if_neg hpos]
    rfl

/-- Whichever way a sleep is taken, it adds up to its duration. -/
theorem sleep_with_abort_check_run (hunaborted : checks.Unaborted) {duration : ℚ} (hduration : 0 ≤ duration)
    (self : Transcript M) :
    ∃ later added, (sleep_with_abort_check checks duration).run self = (.ok (), later) ∧
      later.effects = self.effects ++ added ∧ sent added = [] ∧ slept added = duration := by
  unfold sleep_with_abort_check
  split
  · next hle => exact ⟨self, [], rfl, by simp, rfl, le_antisymm hduration hle⟩
  cases checks.abort_check with
  | none => exact ⟨_, [.sleep duration], rfl, rfl, rfl, by simp [slept]⟩
  | some abort_check =>
    obtain ⟨polled, asked, hasked, heffects⟩ : ∃ polled asked,
        (checks.poll_check.elim (pure false) Streaming.ask).run self = (.ok polled, asked) ∧
          asked.effects = self.effects := by
      cases checks.poll_check with
      | none => exact ⟨false, self, rfl, rfl⟩
      | some poll_check => exact ⟨_, _, rfl, rfl⟩
    simp only
    rw [Streaming.run_bind_of_ok hasked]
    cases polled with
    | true =>
      obtain ⟨later, added, hslices, hadded, hsent, hslept⟩ := sleep_slices_run hunaborted duration hduration asked
      exact ⟨later, added, hslices, by rw [hadded, heffects], hsent, hslept⟩
    | false =>
      obtain ⟨later, hcheck, hlater⟩ :=
        check_abort_run hunaborted { asked with effects := asked.effects ++ [.sleep duration] }
      refine ⟨later, [.sleep duration], ?_, by rw [hlater, heffects], rfl, by simp [slept]⟩
      exact hcheck

/-- The rule for the loop over the parts: what holds before it and is kept by
    every part, once it has been slept for, holds after it. -/
theorem yield_parts_run (hunaborted : checks.Unaborted) {S : Type} {chunk : List UInt8} {max_rate : ℤ} {size : Nat}
    (hrate : 0 < max_rate) {consume : S → List UInt8 → Streaming M S}
    (invariant : List (List UInt8) → S → List (Effect M) → Prop)
    (hconsume : ∀ yielded part state effects added, invariant yielded state effects → sent added = [] →
      slept added = part.length / max_rate → ∀ self : Transcript M, self.effects = effects ++ added →
        ∃ next later, (consume state part).run self = (.ok next, later) ∧
          invariant (yielded ++ [part]) next later.effects)
    (indexes : List Nat) {yielded : List (List UInt8)} {state : S} {self : Transcript M}
    (hinit : invariant yielded state self.effects) :
    ∃ final later, (yield_parts checks chunk max_rate size consume indexes state).run self = (.ok final, later) ∧
      invariant (yielded ++ parts chunk size indexes) final later.effects := by
  induction indexes generalizing yielded state self with
  | nil => exact ⟨state, self, rfl, by simpa [parts] using hinit⟩
  | cons index rest ih =>
    have hduration : (0 : ℚ) ≤ ((chunk.drop index).take size).length / max_rate :=
      div_nonneg (Nat.cast_nonneg _) (Int.cast_nonneg hrate.le)
    obtain ⟨first, hfirst, hfirst_effects⟩ := check_abort_run hunaborted self
    obtain ⟨asleep, added, hsleep, hadded, hsent, hslept⟩ :=
      sleep_with_abort_check_run hunaborted hduration first
    obtain ⟨awake, hawake, hawake_effects⟩ := check_abort_run hunaborted asleep
    obtain ⟨next, later, hconsumed, hnext⟩ := hconsume yielded _ state self.effects added hinit hsent hslept awake
      (by rw [hawake_effects, hadded, hfirst_effects])
    obtain ⟨final, last, hrest, hfinal⟩ := ih hnext
    refine ⟨final, last, ?_, ?_⟩
    · rw [yield_parts, Streaming.run_bind_of_ok hfirst, Streaming.run_bind_of_ok hsleep,
        Streaming.run_bind_of_ok hawake, Streaming.run_bind_of_ok hconsumed, hrest]
    · rwa [List.append_assoc] at hfinal

theorem effective_chunk_size_eq (streamer : ResponseStreamer) {max_rate : ℤ} (hrate : 0 < max_rate) :
    (effective_chunk_size streamer max_rate : ℤ) = min streamer.chunk_size max_rate := by
  have hpos := streamer.chunk_size_pos
  simp only [effective_chunk_size]
  omega

/-- The same rule for a whole chunk: its parts are not empty, no longer than the
    chunk size and the rate allow, and make up the chunk. -/
theorem yield_limited_chunks_run (hunaborted : checks.Unaborted) (streamer : ResponseStreamer) {S : Type}
    (chunk : List UInt8) {max_rate : ℤ} (hrate : 0 < max_rate) {consume : S → List UInt8 → Streaming M S}
    (invariant : List (List UInt8) → S → List (Effect M) → Prop)
    (hconsume : ∀ yielded part state effects added, invariant yielded state effects → sent added = [] →
      slept added = part.length / max_rate → ∀ self : Transcript M, self.effects = effects ++ added →
        ∃ next later, (consume state part).run self = (.ok next, later) ∧
          invariant (yielded ++ [part]) next later.effects)
    {state : S} {self : Transcript M} (hinit : invariant [] state self.effects) :
    ∃ final later yielded,
      (yield_limited_chunks streamer checks chunk max_rate consume state).run self = (.ok final, later) ∧
      invariant yielded final later.effects ∧ yielded.flatten = chunk ∧
      ∀ part ∈ yielded, part ≠ [] ∧ (part.length : ℤ) ≤ min streamer.chunk_size max_rate := by
  have hsize := effective_chunk_size_eq streamer hrate
  have hsize_pos : 0 < effective_chunk_size streamer max_rate := by
    have hpos := streamer.chunk_size_pos
    omega
  obtain ⟨hflatten, hparts⟩ := parts_range chunk hsize_pos
  obtain ⟨final, later, hrun, hfinal⟩ := yield_parts_run hunaborted hrate invariant hconsume
    (range chunk.length (effective_chunk_size streamer max_rate)) hinit
  refine ⟨final, later, _, ?_, hfinal, hflatten, fun part hpart => ?_⟩
  · rw [yield_limited_chunks, if_neg (not_le.mpr hrate)]
    exact hrun
  · obtain ⟨hne, hlength⟩ := hparts part hpart
    exact ⟨hne, by omega⟩

end Unaborted

end response_bandwidth_limiter.streaming

import ResponseBandwidthLimiter.Backends.Operations
import ResponseBandwidthLimiter.Collections.ExpiringMap
import ResponseBandwidthLimiter.Collections.Runs
import Mathlib.Algebra.Order.Ring.Rat
import Mathlib.Logic.Function.Basic

open collections

namespace response_bandwidth_limiter.base

/-- What a key-value storage is for: a map whose entries expire. -/
abbrev Values (V : Type) := String → Option (Timed V ℚ)

/-- An operation and the clock reading it is made at. -/
structure Access (V : Type) where
  now : ℚ
  operation : Operation V

variable {V : Type} [PyValue V]

namespace Values

/-- The value operations on an expiring map. -/
def operate (self : Values V) (now : ℚ) : Operation V → Except PyError (Reply V) × Values V
  | .get key => (.ok (.value ((live now (self key)).elim PyValue.none Timed.value)), self)
  | .set key value expire =>
    match validate_expire expire with
    | .error e => (.error e, self)
    | .ok () => (.ok .done, Function.update self key (some ⟨value, expire.map (fun seconds : ℤ => now + seconds)⟩))
  | .incr key expire =>
    match validate_expire expire with
    | .error e => (.error e, self)
    | .ok () =>
      match ((live now (self key)).map Timed.value).elim (.ok 0) PyValue.as_int with
      | .error e => (.error e, self)
      | .ok previous =>
        -- without a new expiry the counted entry keeps the one it has
        let expires_at := (expire.map (fun seconds : ℤ => now + seconds)).or
          ((live now (self key)).bind Timed.expires_at)
        (.ok (.count (previous + 1)), Function.update self key (some ⟨PyValue.int (previous + 1), expires_at⟩))
  | .delete key => (.ok .done, Function.update self key none)
  | _ => (.ok .done, self)

def perform (self : Values V) (access : Access V) : Except PyError (Reply V) × Values V :=
  self.operate access.now access.operation

def empty : Values V := fun _ => none

/-- Two maps show the same at some keys, at a time and from then on. -/
def Agree (shown : String → Prop) (now : ℚ) (first second : Values V) : Prop :=
  ∀ key, shown key → live now (first key) = live now (second key)

variable {shown : String → Prop} {now : ℚ} {first second : Values V}

omit [PyValue V] in
theorem Agree.later (h : Agree shown now first second) {later : ℚ} (hle : now ≤ later) :
    Agree shown later first second := by
  intro key hkey
  rw [← live_live_of_le hle (first key), h key hkey, live_live_of_le hle]

omit [PyValue V] in
theorem Agree.trans {third : Values V} (h : Agree shown now first second) (hnext : Agree shown now second third) :
    Agree shown now first third :=
  fun key hkey => (h key hkey).trans (hnext key hkey)

omit [PyValue V] in
theorem Agree.update (h : Agree shown now first second) (key : String) (entry : Option (Timed V ℚ)) :
    Agree shown now (Function.update first key entry) (Function.update second key entry) := by
  intro query hquery
  by_cases heq : query = key
  · subst heq
    rw [Function.update_self, Function.update_self]
  · rw [Function.update_of_ne heq, Function.update_of_ne heq]
    exact h query hquery

/-- An operation cannot tell maps apart that show the same. -/
theorem operate_congr (h : Agree shown now first second) {operation : Operation V} {key : String}
    (hkey : operation.key = some key) (hshown : shown key) :
    (first.operate now operation).1 = (second.operate now operation).1 ∧
      Agree shown now (first.operate now operation).2 (second.operate now operation).2 := by
  have hlive := h key hshown
  cases operation with
  | get read =>
    cases hkey
    exact ⟨by simp only [operate, hlive], h⟩
  | set put value expire =>
    simp only [operate]
    cases validate_expire expire with
    | error e => exact ⟨rfl, h⟩
    | ok _ => exact ⟨rfl, h.update put _⟩
  | incr counted expire =>
    cases hkey
    simp only [operate, hlive]
    cases validate_expire expire with
    | error e => exact ⟨rfl, h⟩
    | ok _ =>
      cases ((live now (second key)).map Timed.value).elim (.ok 0) PyValue.as_int with
      | error e => exact ⟨rfl, h⟩
      | ok previous => exact ⟨rfl, h.update key _⟩
  | delete deleted => exact ⟨rfl, h.update deleted none⟩
  | record_hit => cases hkey
  | cleanup_handler_counters => cases hkey
  | cleanup_orphaned_counters => cases hkey

/-- An operation leaves every other key alone. -/
theorem operate_of_ne (self : Values V) (now : ℚ) {operation : Operation V} {key query : String}
    (hkey : operation.key = some key) (hne : query ≠ key) : (self.operate now operation).2 query = self query := by
  cases operation with
  | get read => rfl
  | set put value expire =>
    cases hkey
    simp only [operate]
    cases validate_expire expire with
    | error e => rfl
    | ok _ => exact Function.update_of_ne hne _ _
  | incr counted expire =>
    cases hkey
    simp only [operate]
    cases validate_expire expire with
    | error e => rfl
    | ok _ =>
      cases ((live now (self key)).map Timed.value).elim (.ok 0) PyValue.as_int with
      | error e => rfl
      | ok previous => exact Function.update_of_ne hne _ _
  | delete deleted =>
    cases hkey
    exact Function.update_of_ne hne _ _
  | record_hit => cases hkey
  | cleanup_handler_counters => cases hkey
  | cleanup_orphaned_counters => cases hkey

/-- The refinement rule. A storage whose every access answers as an expiring map
    with its entries does, and leaves entries that show the same, answers a run
    of accesses as an expiring map that was empty at first. -/
theorem outputs_eq_perform {S : Type} {step : S → Access V → Except PyError (Reply V) × S} (shown : String → Prop)
    (entries : S → Values V) (inv : List (Access V) → S → Prop) {state : S} {accesses : List (Access V)}
    (hinit : inv [] state)
    (hempty : ∀ key, shown key → entries state key = none)
    (hmono : accesses.Pairwise (fun first second => first.now ≤ second.now))
    (hkeys : ∀ access ∈ accesses, ∃ key, access.operation.key = some key ∧ shown key)
    (hstep : ∀ before access rest, accesses = before ++ access :: rest → ∀ s, inv before s →
      (step s access).1 = ((entries s).perform access).1 ∧
      Agree shown access.now (entries (step s access).2) ((entries s).perform access).2 ∧
      inv (before ++ [access]) (step s access).2) :
    outputs step state accesses = outputs perform (empty : Values V) accesses := by
  have hrun : List.Forall₂ Eq (outputs step state accesses) (outputs perform (empty : Values V) accesses) ∧ _ :=
    simulation Eq (fun before s values => inv before s ∧
      ∀ now, (∀ earlier ∈ before, earlier.now ≤ now) → Agree shown now (entries s) values)
    ⟨hinit, fun now _ key hkey => by rw [hempty key hkey, empty]⟩ ?_
  · exact List.forall₂_eq_eq_eq ▸ hrun.1
  rintro before access rest rfl s values ⟨hinv, hagree⟩
  obtain ⟨hanswer, hentries, hnext⟩ := hstep before access rest rfl s hinv
  obtain ⟨key, hkey, hshown⟩ := hkeys access (by simp)
  have hearlier : ∀ earlier ∈ before, earlier.now ≤ access.now :=
    fun earlier hmem => (List.pairwise_append.mp hmono).2.2 earlier hmem access List.mem_cons_self
  obtain ⟨hsame, hafter⟩ := operate_congr (hagree access.now hearlier) hkey hshown
  refine ⟨hanswer.trans hsame, hnext, ?_⟩
  intro now hnow
  exact (hentries.trans hafter).later (hnow access (by simp))

end Values

end response_bandwidth_limiter.base

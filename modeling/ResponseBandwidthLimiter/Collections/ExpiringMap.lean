import Mathlib.Order.Basic
import Mathlib.Order.Lattice
import Mathlib.Data.List.Induction
import Mathlib.Data.Option.Basic

namespace collections

/-- A value together with the time at which it expires, if it does. -/
structure Timed (V T : Type*) where
  value : V
  expires_at : Option T
  deriving DecidableEq

section Alive

variable {V T : Type*} [LinearOrder T]

def Timed.alive (now : T) (self : Timed V T) : Bool :=
  match self.expires_at with
  | none => true
  | some time => now < time

/-- An entry that is gone only after its expiry, and not at that time already. -/
def Timed.lasts (now : T) (self : Timed V T) : Bool :=
  match self.expires_at with
  | none => true
  | some time => now ≤ time

/-- What of a stored entry can still be read. -/
def live (now : T) (entry : Option (Timed V T)) : Option (Timed V T) := entry.filter (Timed.alive now)

/-- What of a stored entry can still be read where entries last through the time
    of their expiry. -/
def lasting (now : T) (entry : Option (Timed V T)) : Option (Timed V T) := entry.filter (Timed.lasts now)

theorem Timed.alive_iff {now : T} {self : Timed V T} :
    self.alive now = true ↔ ∀ time ∈ self.expires_at, now < time := by
  unfold Timed.alive
  cases self.expires_at <;> simp

theorem Timed.lasts_iff {now : T} {self : Timed V T} :
    self.lasts now = true ↔ ∀ time ∈ self.expires_at, now ≤ time := by
  unfold Timed.lasts
  cases self.expires_at <;> simp

/-- An entry that can be read at a time could be read before. -/
theorem Timed.alive_of_le {now later : T} {self : Timed V T} (hle : now ≤ later)
    (halive : self.alive later = true) : self.alive now = true := by
  rw [Timed.alive_iff] at halive ⊢
  exact fun time htime => lt_of_le_of_lt hle (halive time htime)

theorem Timed.lasts_of_le {now later : T} {self : Timed V T} (hle : now ≤ later)
    (hlasts : self.lasts later = true) : self.lasts now = true := by
  rw [Timed.lasts_iff] at hlasts ⊢
  exact fun time htime => hle.trans (hlasts time htime)

theorem Timed.lasts_of_alive {now : T} {self : Timed V T} (halive : self.alive now = true) :
    self.lasts now = true := by
  rw [Timed.alive_iff] at halive
  rw [Timed.lasts_iff]
  exact fun time htime => (halive time htime).le

/-- The two differ at the time of the expiry alone. -/
theorem Timed.alive_of_lasts {now : T} {self : Timed V T} (hlasts : self.lasts now = true)
    (hinstant : self.expires_at ≠ some now) : self.alive now = true := by
  rw [Timed.lasts_iff] at hlasts
  rw [Timed.alive_iff]
  exact fun time htime => lt_of_le_of_ne (hlasts time htime) fun heq => hinstant (heq ▸ htime)

@[simp] theorem live_none (now : T) : live now (none : Option (Timed V T)) = none := rfl

theorem live_some_of_alive {now : T} {entry : Timed V T} (halive : entry.alive now = true) :
    live now (some entry) = some entry := by
  simp [live, halive]

theorem live_some_of_not_alive {now : T} {entry : Timed V T} (hdead : entry.alive now = false) :
    live now (some entry) = none := by
  simp [live, hdead]

theorem live_eq_some_iff {now : T} {stored : Option (Timed V T)} {entry : Timed V T} :
    live now stored = some entry ↔ stored = some entry ∧ entry.alive now = true := by
  simp [live, Option.filter_eq_some_iff]

@[simp] theorem lasting_none (now : T) : lasting now (none : Option (Timed V T)) = none := rfl

theorem lasting_some_of_lasts {now : T} {entry : Timed V T} (hlasts : entry.lasts now = true) :
    lasting now (some entry) = some entry := by
  simp [lasting, hlasts]

theorem lasting_some_of_not_lasts {now : T} {entry : Timed V T} (hgone : entry.lasts now = false) :
    lasting now (some entry) = none := by
  simp [lasting, hgone]

theorem lasting_eq_some_iff {now : T} {stored : Option (Timed V T)} {entry : Timed V T} :
    lasting now stored = some entry ↔ stored = some entry ∧ entry.lasts now = true := by
  simp [lasting, Option.filter_eq_some_iff]

/-- What a test lets through passes every test that asks less. -/
theorem filter_filter_of_imp {A : Type*} {weak strong : A → Bool} (himp : ∀ a, strong a = true → weak a = true)
    (entry : Option A) : (entry.filter weak).filter strong = entry.filter strong := by
  rw [Option.filter_filter]
  congr 1
  funext a
  cases hstrong : strong a with
  | true => rw [himp a hstrong, Bool.true_and]
  | false => rw [Bool.and_false]

theorem lasting_lasting_of_le {now later : T} (hle : now ≤ later) (entry : Option (Timed V T)) :
    lasting later (lasting now entry) = lasting later entry :=
  filter_filter_of_imp (fun _ => Timed.lasts_of_le hle) entry

theorem live_lasting (now : T) (entry : Option (Timed V T)) : live now (lasting now entry) = live now entry :=
  filter_filter_of_imp (fun _ => Timed.lasts_of_alive) entry

theorem live_of_lasting {now : T} {stored : Option (Timed V T)} {entry : Timed V T}
    (hlasting : lasting now stored = some entry) (hinstant : entry.expires_at ≠ some now) :
    live now stored = some entry := by
  obtain ⟨hstored, hlasts⟩ := lasting_eq_some_iff.mp hlasting
  exact live_eq_some_iff.mpr ⟨hstored, Timed.alive_of_lasts hlasts hinstant⟩

theorem live_of_not_lasting {now : T} {stored : Option (Timed V T)} (hgone : lasting now stored = none) :
    live now stored = none := by
  rw [← live_lasting, hgone, live_none]

/-- Expired entries stay expired, so reading at a later time needs only what
    was readable before. -/
theorem live_live_of_le {now later : T} (hle : now ≤ later) (entry : Option (Timed V T)) :
    live later (live now entry) = live later entry :=
  filter_filter_of_imp (fun _ => Timed.alive_of_le hle) entry

end Alive

section Changes

/-- An assignment of an entry to a key, or its removal. -/
abbrev Change (K V T : Type*) := K × Option (Timed V T)

variable {A K V T : Type*} [DecidableEq K] (change : A → Option (Change K V T))

/-- What one event leaves at a key. -/
def changed (key : K) (entry : Option (Timed V T)) (event : A) : Option (Timed V T) :=
  match change event with
  | none => entry
  | some (target, assigned) => if target = key then assigned else entry

/-- What a log of events leaves at a key of an empty map. -/
def standing (log : List A) (key : K) : Option (Timed V T) := log.foldl (changed change key) none

@[simp] theorem standing_nil (key : K) : standing change [] key = none := rfl

theorem standing_concat (log : List A) (event : A) (key : K) :
    standing change (log ++ [event]) key = changed change key (standing change log key) event := by
  simp [standing, List.foldl_append]

variable {change}

theorem changed_of_ne {key : K} {event : A} (hne : ∀ target ∈ change event, target.1 ≠ key)
    (entry : Option (Timed V T)) : changed change key entry event = entry := by
  unfold changed
  cases hchange : change event with
  | none => rfl
  | some target => simp [hne target hchange]

/-- An expired entry makes no difference to what a later event leaves. -/
theorem live_changed [LinearOrder T] {now later : T} (hle : now ≤ later) (key : K) (entry : Option (Timed V T))
    (event : A) :
    live later (changed change key (live now entry) event) = live later (changed change key entry event) := by
  unfold changed
  cases change event with
  | none => exact live_live_of_le hle entry
  | some target =>
    simp only
    split_ifs
    · rfl
    · exact live_live_of_le hle entry

theorem standing_append_of_ne {first second : List A} {key : K}
    (hne : ∀ event ∈ second, ∀ target ∈ change event, target.1 ≠ key) :
    standing change (first ++ second) key = standing change first key := by
  induction second using List.reverseRecOn with
  | nil => rw [List.append_nil]
  | append_singleton rest event ih =>
    rw [← List.append_assoc, standing_concat, changed_of_ne (hne event (by simp))]
    exact ih (fun other hother => hne other (List.mem_append_left _ hother))

/-- A key holds an entry exactly when the last event that changed the key
    assigned it. -/
theorem standing_eq_some_iff {log : List A} {key : K} {entry : Timed V T} :
    standing change log key = some entry ↔
      ∃ before event after, log = before ++ event :: after ∧ change event = some (key, some entry) ∧
        ∀ other ∈ after, ∀ target ∈ change other, target.1 ≠ key := by
  constructor
  · induction log using List.reverseRecOn with
    | nil => simp
    | append_singleton rest event ih =>
      intro hstanding
      rw [standing_concat] at hstanding
      by_cases hkey : ∃ assigned, change event = some (key, assigned)
      · obtain ⟨assigned, hchange⟩ := hkey
        simp only [changed, hchange, if_true] at hstanding
        subst hstanding
        exact ⟨rest, event, [], rfl, hchange, by simp⟩
      · have hother : ∀ target ∈ change event, target.1 ≠ key := by
          rintro ⟨target, assigned⟩ hchange rfl
          exact hkey ⟨assigned, hchange⟩
        rw [changed_of_ne hother] at hstanding
        obtain ⟨before, found, after, hrest, hfound, hafter⟩ := ih hstanding
        refine ⟨before, found, after ++ [event], by rw [hrest, List.append_assoc]; rfl, hfound, ?_⟩
        intro other hmem
        rcases List.mem_append.mp hmem with hmem | hmem
        · exact hafter other hmem
        · rw [List.mem_singleton.mp hmem]
          exact hother
  · rintro ⟨before, event, after, rfl, hchange, hafter⟩
    rw [List.append_cons, standing_append_of_ne hafter, standing_concat]
    simp [changed, hchange]

/-- A key holds an entry of a kind exactly when the last event that changed the
    key assigned it such an entry. -/
theorem filter_standing_isSome_iff {log : List A} {key : K} {kind : Timed V T → Bool} :
    ((standing change log key).filter kind).isSome ↔
      ∃ before event after entry, log = before ++ event :: after ∧ change event = some (key, some entry) ∧
        kind entry = true ∧ ∀ other ∈ after, ∀ target ∈ change other, target.1 ≠ key := by
  rw [Option.isSome_iff_exists]
  constructor
  · rintro ⟨entry, hfound⟩
    obtain ⟨hstanding, hkind⟩ := Option.filter_eq_some_iff.mp hfound
    obtain ⟨before, event, after, hlog, hchange, hafter⟩ := standing_eq_some_iff.mp hstanding
    exact ⟨before, event, after, entry, hlog, hchange, hkind, hafter⟩
  · rintro ⟨before, event, after, entry, hlog, hchange, hkind, hafter⟩
    exact ⟨entry, Option.filter_eq_some_iff.mpr
      ⟨standing_eq_some_iff.mpr ⟨before, event, after, hlog, hchange, hafter⟩, hkind⟩⟩

/-- A key can be read exactly when the last event that changed the key assigned
    it an entry that has not expired. -/
theorem live_standing_isSome_iff [LinearOrder T] {log : List A} {key : K} {now : T} :
    (live now (standing change log key)).isSome ↔
      ∃ before event after entry, log = before ++ event :: after ∧ change event = some (key, some entry) ∧
        entry.alive now = true ∧ ∀ other ∈ after, ∀ target ∈ change other, target.1 ≠ key :=
  filter_standing_isSome_iff

end Changes

end collections

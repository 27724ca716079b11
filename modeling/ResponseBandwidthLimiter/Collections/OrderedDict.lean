import Mathlib.Data.List.Nodup
import Mathlib.Data.List.Basic
import Mathlib.Data.List.Sublists

namespace collections

/-- A finite map that remembers insertion order: iteration follows `items`,
    and every key occurs once. This is the observable behaviour of a dictionary
    whose updates in place keep an entry where it is and whose new entries go
    to the end. -/
structure OrderedDict (K V : Type*) where
  items : List (K × V)
  nodup_keys : (items.map Prod.fst).Nodup

namespace OrderedDict

variable {K V : Type*}

def empty : OrderedDict K V := ⟨[], List.nodup_nil⟩

/-- The keys in iteration order. -/
def keys (self : OrderedDict K V) : List K := self.items.map Prod.fst

def size (self : OrderedDict K V) : Nat := self.items.length

section Operations

variable [DecidableEq K]

def get? (self : OrderedDict K V) (key : K) : Option V :=
  (self.items.find? (fun entry => entry.1 = key)).map Prod.snd

private theorem replace_keys (items : List (K × V)) (key : K) (value : V) :
    (items.map (fun entry => if entry.1 = key then (key, value) else entry)).map Prod.fst =
      items.map Prod.fst := by
  rw [List.map_map]
  apply List.map_congr_left
  intro entry _
  by_cases heq : entry.1 = key <;> simp [heq]

/-- Assignment replaces the value of a present key in place and appends a new
    entry otherwise. -/
def set (self : OrderedDict K V) (key : K) (value : V) : OrderedDict K V :=
  if h : key ∈ self.keys then
    ⟨self.items.map (fun entry => if entry.1 = key then (key, value) else entry), by
      rw [replace_keys]; exact self.nodup_keys⟩
  else
    ⟨self.items ++ [(key, value)], by
      rw [List.map_append, List.nodup_append]
      refine ⟨self.nodup_keys, by simp, ?_⟩
      intro present hpresent added hadded heq
      simp only [List.map_cons, List.map_nil, List.mem_singleton] at hadded
      subst hadded heq
      exact h hpresent⟩

/-- Removal of a key that may be absent. -/
def erase (self : OrderedDict K V) (key : K) : OrderedDict K V :=
  ⟨self.items.filter (fun entry => entry.1 ≠ key),
    (List.filter_sublist.map Prod.fst).nodup self.nodup_keys⟩

/-- Removal of several keys, one after the other. -/
def eraseAll (self : OrderedDict K V) (keys : List K) : OrderedDict K V :=
  keys.foldl erase self

end Operations

/-- Rewriting every value in place. -/
def mapValues (self : OrderedDict K V) (f : K → V → V) : OrderedDict K V :=
  ⟨self.items.map (fun entry => (entry.1, f entry.1 entry.2)), by
    have hkeys : (self.items.map (fun entry => (entry.1, f entry.1 entry.2))).map Prod.fst =
        self.items.map Prod.fst := by rw [List.map_map]; rfl
    rw [hkeys]; exact self.nodup_keys⟩

@[simp] theorem keys_empty : (empty : OrderedDict K V).keys = [] := rfl

theorem keys_length (self : OrderedDict K V) : self.keys.length = self.size := by
  simp [keys, size]

/-- With unique keys a stored pair is determined by its key. -/
theorem mem_unique {self : OrderedDict K V} {key : K} {first second : V}
    (hfirst : (key, first) ∈ self.items) (hsecond : (key, second) ∈ self.items) :
    first = second := by
  have hinj := List.inj_on_of_nodup_map self.nodup_keys hfirst hsecond rfl
  exact congrArg Prod.snd hinj

section Lookup

variable [DecidableEq K]

/-- A lookup succeeds exactly on the stored pairs. -/
theorem get?_eq_some_iff {self : OrderedDict K V} {key : K} {value : V} :
    self.get? key = some value ↔ (key, value) ∈ self.items := by
  unfold get?
  constructor
  · intro h
    rw [Option.map_eq_some_iff] at h
    obtain ⟨⟨stored, found⟩, hfind, rfl⟩ := h
    have hkey : stored = key := by simpa using List.find?_some hfind
    subst hkey
    exact List.mem_of_find?_eq_some hfind
  · intro hmem
    have hsome : (self.items.find? (fun entry => entry.1 = key)).isSome := by
      rw [List.find?_isSome]
      exact ⟨(key, value), hmem, by simp⟩
    obtain ⟨⟨stored, found⟩, hfind⟩ := Option.isSome_iff_exists.mp hsome
    have hkey : stored = key := by simpa using List.find?_some hfind
    subst hkey
    rw [hfind, Option.map_some]
    exact congrArg some (mem_unique (List.mem_of_find?_eq_some hfind) hmem)

theorem get?_eq_none_iff {self : OrderedDict K V} {key : K} :
    self.get? key = none ↔ key ∉ self.keys := by
  simp only [get?, Option.map_eq_none_iff, List.find?_eq_none, keys, List.mem_map, not_exists,
    not_and, decide_eq_true_eq]

theorem mem_keys_iff {self : OrderedDict K V} {key : K} :
    key ∈ self.keys ↔ ∃ value, self.get? key = some value := by
  rw [← not_iff_not, ← get?_eq_none_iff, Option.eq_none_iff_forall_ne_some]
  simp

theorem items_set_of_mem {self : OrderedDict K V} {key : K} (h : key ∈ self.keys) (value : V) :
    (self.set key value).items =
      self.items.map (fun entry => if entry.1 = key then (key, value) else entry) := by
  unfold set
  rw [dif_pos h]

theorem items_set_of_not_mem {self : OrderedDict K V} {key : K} (h : key ∉ self.keys) (value : V) :
    (self.set key value).items = self.items ++ [(key, value)] := by
  unfold set
  rw [dif_neg h]

theorem mem_items_set {self : OrderedDict K V} {key : K} {value : V} {entry : K × V} :
    entry ∈ (self.set key value).items ↔
      entry = (key, value) ∨ (entry.1 ≠ key ∧ entry ∈ self.items) := by
  by_cases hkey : key ∈ self.keys
  · rw [items_set_of_mem hkey]
    simp only [List.mem_map]
    constructor
    · rintro ⟨old, hold, rfl⟩
      by_cases heq : old.1 = key
      · simp [heq]
      · simp only [heq, if_false]
        exact Or.inr ⟨heq, hold⟩
    · rintro (rfl | ⟨hne, hmem⟩)
      · obtain ⟨old, hold, hsame⟩ := List.mem_map.mp hkey
        exact ⟨old, hold, by simp [hsame]⟩
      · exact ⟨entry, hmem, by simp [hne]⟩
  · rw [items_set_of_not_mem hkey]
    simp only [List.mem_append, List.mem_singleton]
    constructor
    · rintro (hmem | rfl)
      · exact Or.inr ⟨fun heq => hkey (heq ▸ List.mem_map.mpr ⟨entry, hmem, rfl⟩), hmem⟩
      · exact Or.inl rfl
    · rintro (rfl | ⟨_, hmem⟩)
      · exact Or.inr rfl
      · exact Or.inl hmem

/-- Assignment is read back at its own key and nowhere else. -/
theorem get?_set (self : OrderedDict K V) (key query : K) (value : V) :
    (self.set key value).get? query = if query = key then some value else self.get? query := by
  apply Option.ext
  intro found
  rw [get?_eq_some_iff, mem_items_set]
  by_cases heq : query = key
  · subst heq
    simp [eq_comm]
  · simp [heq, get?_eq_some_iff]

@[simp] theorem get?_set_self (self : OrderedDict K V) (key : K) (value : V) :
    (self.set key value).get? key = some value := by
  simp [get?_set]

theorem get?_set_of_ne (self : OrderedDict K V) {key query : K} (value : V) (hne : query ≠ key) :
    (self.set key value).get? query = self.get? query := by
  simp [get?_set, hne]

theorem mem_keys_set {self : OrderedDict K V} {key query : K} {value : V} :
    query ∈ (self.set key value).keys ↔ query = key ∨ query ∈ self.keys := by
  simp only [mem_keys_iff, get?_set]
  by_cases heq : query = key <;> simp [heq]

theorem keys_erase (self : OrderedDict K V) (key : K) : (self.erase key).keys = self.keys.filter (· ≠ key) := by
  simp only [keys, erase, List.filter_map]
  rfl

/-- Removal forgets its own key and nothing else. -/
theorem get?_erase (self : OrderedDict K V) (key query : K) :
    (self.erase key).get? query = if query = key then none else self.get? query := by
  apply Option.ext
  intro found
  rw [get?_eq_some_iff]
  by_cases heq : query = key
  · subst heq
    simp [erase]
  · simp [erase, heq, get?_eq_some_iff]

@[simp] theorem get?_erase_self (self : OrderedDict K V) (key : K) :
    (self.erase key).get? key = none := by
  simp [get?_erase]

theorem get?_erase_of_ne (self : OrderedDict K V) {key query : K} (hne : query ≠ key) :
    (self.erase key).get? query = self.get? query := by
  simp [get?_erase, hne]

/-- The keys of the entries with a property are those it holds of the entry of. -/
theorem mem_keys_filter_iff {self : OrderedDict K V} {p : K × V → Bool} {key : K} :
    key ∈ (self.items.filter p).map Prod.fst ↔ ∃ value, self.get? key = some value ∧ p (key, value) := by
  simp only [List.mem_map, List.mem_filter, get?_eq_some_iff]
  constructor
  · rintro ⟨⟨_, value⟩, ⟨hmem, hp⟩, rfl⟩
    exact ⟨value, hmem, hp⟩
  · rintro ⟨value, hmem, hp⟩
    exact ⟨(key, value), ⟨hmem, hp⟩, rfl⟩

theorem get?_eraseAll (self : OrderedDict K V) (stale : List K) (query : K) :
    (self.eraseAll stale).get? query = if query ∈ stale then none else self.get? query := by
  unfold eraseAll
  induction stale generalizing self with
  | nil => simp
  | cons key rest ih =>
    rw [List.foldl_cons, ih, get?_erase]
    by_cases hrest : query ∈ rest
    · simp [hrest]
    · by_cases heq : query = key <;> simp [hrest, heq]

theorem get?_mapValues (self : OrderedDict K V) (f : K → V → V) (query : K) :
    (self.mapValues f).get? query = (self.get? query).map (f query) := by
  apply Option.ext
  intro found
  rw [get?_eq_some_iff, Option.map_eq_some_iff]
  simp only [mapValues, List.mem_map, get?_eq_some_iff, Prod.mk.injEq]
  constructor
  · rintro ⟨⟨key, value⟩, hmem, rfl, rfl⟩
    exact ⟨value, hmem, rfl⟩
  · rintro ⟨value, hmem, rfl⟩
    exact ⟨(query, value), hmem, rfl, rfl⟩

end Lookup

end OrderedDict

end collections

import ResponseBandwidthLimiter.Backends.Memory.Operations
import ResponseBandwidthLimiter.Backends.Values
import Mathlib.Data.Finset.Card
import Mathlib.Data.List.Dedup

open collections
open response_bandwidth_limiter.base response_bandwidth_limiter.models

namespace response_bandwidth_limiter.memory

namespace InMemoryStorage

section Entries

variable {V : Type} {self : InMemoryStorage V}

/-- Only keys with a value have an expiry. -/
def Attached (self : InMemoryStorage V) : Prop := ∀ key, self.values.get? key = none → self.expires.get? key = none

theorem Attached.delete_key (h : self.Attached) (deleted : String) : (self.delete_key deleted).Attached := by
  intro key hmissing
  by_cases heq : key = deleted
  · simp [InMemoryStorage.delete_key, heq]
  · rw [InMemoryStorage.delete_key, OrderedDict.get?_erase_of_ne _ heq] at hmissing
    rw [InMemoryStorage.delete_key, OrderedDict.get?_erase_of_ne _ heq]
    exact h key hmissing

theorem Attached.delete_if_expired (h : self.Attached) (candidate : String) (now : ℚ) :
    (self.delete_if_expired candidate now).2.Attached := delete_if_expired_keeps h (h.delete_key candidate) now

theorem Attached.put_value (h : self.Attached) (put : String) (value : V) : (self.put_value put value).Attached := by
  intro key hmissing
  apply h key
  rw [InMemoryStorage.put_value, OrderedDict.get?_set] at hmissing
  split at hmissing
  · cases hmissing
  · exact hmissing

theorem Attached.set_expiry (h : self.Attached) {put : String} (hput : self.values.get? put ≠ none) (now : ℚ)
    (expire : Option ℤ) : (self.set_expiry put now expire).Attached := by
  intro key hmissing
  have hvalues : (self.set_expiry put now expire).values = self.values := by cases expire <;> rfl
  rw [hvalues] at hmissing
  have hne : key ≠ put := fun heq => hput (heq ▸ hmissing)
  cases expire with
  | none => exact (OrderedDict.get?_erase_of_ne _ hne).trans (h key hmissing)
  | some seconds => exact (OrderedDict.get?_set_of_ne _ _ hne).trans (h key hmissing)

theorem evict_keys_if_needed_of_room {key : String} (now : ℚ)
    (hroom : key ∈ self.values.keys ∨ self.values.size < self.max_keys) :
    self.evict_keys_if_needed key now = (.ok (), self) := if_pos hroom

/-- After the expiry check an entry is what could be read of it. -/
theorem entry_delete_if_expired (self : InMemoryStorage V) (candidate : String) (now : ℚ) (key : String) :
    (self.delete_if_expired candidate now).2.entry key =
      if key = candidate then live now (self.entry key) else self.entry key := by
  by_cases hexpired : ∃ expires_at ∈ self.expires.get? candidate, expires_at ≤ now
  · rw [delete_if_expired_of_expired hexpired, entry_delete_key]
    obtain ⟨expires_at, hexpires, hle⟩ := hexpired
    rw [Option.mem_def] at hexpires
    split
    · next heq =>
      subst heq
      unfold entry
      cases self.values.get? key with
      | none => rfl
      | some value => exact (live_some_of_not_alive (by simpa [Timed.alive, hexpires] using hle)).symm
    · rfl
  · rw [delete_if_expired_of_not_expired hexpired]
    push Not at hexpired
    split
    · next heq =>
      subst heq
      unfold entry
      cases self.values.get? key with
      | none => rfl
      | some value => exact (live_some_of_alive (Timed.alive_iff.mpr hexpired)).symm
    · rfl

/-- Where expiries belong to values, a counted entry keeps its expiry. -/
theorem Attached.entry_put_value (h : self.Attached) (put : String) (value : V) (key : String) :
    (self.put_value put value).entry key =
      if key = put then some ⟨value, (self.entry put).bind Timed.expires_at⟩ else self.entry key := by
  by_cases heq : key = put
  · subst heq
    rw [if_pos rfl]
    unfold entry
    rw [InMemoryStorage.put_value, OrderedDict.get?_set_self, Option.map_some]
    cases hvalue : self.values.get? key with
    | none => simp [h key hvalue]
    | some stored => rfl
  · rw [if_neg heq, entry_put_value_of_ne _ _ heq]

/-- The keys in use are among some that the storage has room for. -/
structure Roomy (named : Finset String) (storage : InMemoryStorage V) : Prop where
  attached : storage.Attached
  among : ∀ key ∈ storage.values.keys, key ∈ named
  card_le : named.card ≤ storage.max_keys

variable {named : Finset String}

theorem Roomy.room (h : Roomy named self) {key : String} (hkey : key ∈ named) :
    key ∈ self.values.keys ∨ self.values.size < self.max_keys := by
  by_cases hmem : key ∈ self.values.keys
  · exact Or.inl hmem
  · have hnodup : (key :: self.values.keys).Nodup := List.nodup_cons.mpr ⟨hmem, self.values.nodup_keys⟩
    have hsubset : (key :: self.values.keys).toFinset ⊆ named := by
      intro other hother
      rcases List.mem_cons.mp (List.mem_toFinset.mp hother) with rfl | hother
      · exact hkey
      · exact h.among other hother
    have hcard := (Finset.card_le_card hsubset).trans h.card_le
    rw [List.toFinset_card_of_nodup hnodup, List.length_cons, OrderedDict.keys_length] at hcard
    exact Or.inr (by omega)

theorem Roomy.delete_key (h : Roomy named self) (deleted : String) : Roomy named (self.delete_key deleted) := by
  refine ⟨h.attached.delete_key deleted, fun key hkey => h.among key ?_, h.card_le⟩
  obtain ⟨value, hvalue⟩ := OrderedDict.mem_keys_iff.mp hkey
  rw [InMemoryStorage.delete_key, OrderedDict.get?_erase] at hvalue
  split at hvalue
  · cases hvalue
  · exact OrderedDict.mem_keys_iff.mpr ⟨value, hvalue⟩

theorem Roomy.delete_if_expired (h : Roomy named self) (candidate : String) (now : ℚ) :
    Roomy named (self.delete_if_expired candidate now).2 := delete_if_expired_keeps h (h.delete_key candidate) now

theorem Roomy.put_value (h : Roomy named self) {put : String} (hput : put ∈ named) (value : V) :
    Roomy named (self.put_value put value) := by
  refine ⟨h.attached.put_value put value, fun key hkey => ?_, h.card_le⟩
  rcases OrderedDict.mem_keys_set.mp hkey with rfl | hkey
  · exact hput
  · exact h.among key hkey

theorem Roomy.touch_key (h : Roomy named self) (touched : String) (now : ℚ) :
    Roomy named (self.touch_key touched now) := ⟨h.attached, h.among, h.card_le⟩

theorem Roomy.set_expiry (h : Roomy named self) {put : String} (hput : self.values.get? put ≠ none) (now : ℚ)
    (expire : Option ℤ) : Roomy named (self.set_expiry put now expire) := by
  refine ⟨h.attached.set_expiry hput now expire, ?_, ?_⟩
  · cases expire <;> exact h.among
  · cases expire <;> exact h.card_le

end Entries

section Refinement

variable {V : Type} [PyValue V] {self : InMemoryStorage V} {named : Finset String}

theorem Roomy.get (h : Roomy named self) (now : ℚ) (read : String) : Roomy named (self.get now read).2 := by
  have hswept := h.delete_if_expired read now
  unfold InMemoryStorage.get
  generalize self.delete_if_expired read now = outcome at hswept
  obtain ⟨deleted, swept⟩ := outcome
  cases deleted with
  | true => exact hswept
  | false =>
    simp only
    cases swept.values.get? read with
    | none => exact hswept
    | some value => exact hswept.touch_key read now

theorem Roomy.set (h : Roomy named self) (now : ℚ) {put : String} (hput : put ∈ named) (value : V)
    (expire : Option ℤ) :
    (self.operate now (.set put value expire)).1 = (Values.operate self.entry now (.set put value expire)).1 ∧
      Values.Agree (fun _ => True) now (self.operate now (.set put value expire)).2.entry
        (Values.operate self.entry now (.set put value expire)).2 ∧
      Roomy named (self.operate now (.set put value expire)).2 := by
  simp only [InMemoryStorage.operate, InMemoryStorage.set, Values.operate,
    evict_keys_if_needed_of_room now (h.room hput)]
  cases validate_expire expire with
  | error e => exact ⟨rfl, fun _ _ => rfl, h⟩
  | ok _ =>
    refine ⟨rfl, fun query _ => ?_, ?_⟩
    · simp only [entry_put, Function.update_apply]
      rfl
    · refine ((h.put_value hput value).touch_key put now).set_expiry ?_ now expire
      simp [InMemoryStorage.put_value, InMemoryStorage.touch_key]

theorem Roomy.incr (h : Roomy named self) (now : ℚ) {counted : String} (hcounted : counted ∈ named)
    (expire : Option ℤ) :
    (self.operate now (.incr counted expire)).1 = (Values.operate self.entry now (.incr counted expire)).1 ∧
      Values.Agree (fun _ => True) now (self.operate now (.incr counted expire)).2.entry
        (Values.operate self.entry now (.incr counted expire)).2 ∧
      Roomy named (self.operate now (.incr counted expire)).2 := by
  have hswept := h.delete_if_expired counted now
  have hentry := entry_delete_if_expired self counted now
  have hvisible := visible_delete_if_expired self counted now
  simp only [InMemoryStorage.operate, InMemoryStorage.incr, Values.operate]
  cases validate_expire expire with
  | error e => exact ⟨rfl, fun _ _ => rfl, h⟩
  | ok _ =>
    generalize (self.delete_if_expired counted now).2 = swept at hswept hentry hvisible
    have hlive : live now (self.entry counted) = swept.entry counted := by rw [hentry, if_pos rfl]
    have hvalue : (swept.values.get? counted) = (swept.entry counted).map Timed.value := by
      simp [entry, Function.comp_def]
    simp only [evict_keys_if_needed_of_room now (hswept.room hcounted), hvalue, hlive]
    cases ((swept.entry counted).map Timed.value).elim (.ok 0) PyValue.as_int with
    | error e => exact ⟨rfl, fun query _ => hvisible query, hswept⟩
    | ok previous =>
      have hput := (hswept.put_value hcounted (PyValue.int (previous + 1))).touch_key counted now
      refine ⟨rfl, fun query _ => ?_, ?_⟩
      · cases expire with
        | none =>
          simp only [Option.isSome_none, Bool.false_eq_true, if_false, entry_touch_key,
            hswept.attached.entry_put_value, Function.update_apply]
          split
          · rfl
          · exact hvisible query
        | some seconds =>
          simp only [Option.isSome_some, if_true, entry_put, Function.update_apply]
          split
          · rfl
          · exact hvisible query
      · simp only
        split
        · refine hput.set_expiry ?_ now expire
          simp [InMemoryStorage.put_value, InMemoryStorage.touch_key]
        · exact hput

/-- Every value operation with room for its key is that of an expiring map. -/
theorem Roomy.operate (h : Roomy named self) (now : ℚ) {operation : Operation V} {key : String}
    (hkey : operation.key = some key) (hnamed : key ∈ named) :
    (self.operate now operation).1 = (Values.operate self.entry now operation).1 ∧
      Values.Agree (fun _ => True) now (self.operate now operation).2.entry
        (Values.operate self.entry now operation).2 ∧
      Roomy named (self.operate now operation).2 := by
  cases operation with
  | get read =>
    refine ⟨?_, fun query _ => visible_get self now read query, ?_⟩
    · exact congrArg (fun value => Except.ok (Reply.value value)) (get_result self now read)
    · exact h.get now read
  | set put value expire =>
    cases hkey
    exact h.set now hnamed value expire
  | incr counted expire =>
    cases hkey
    exact h.incr now hnamed expire
  | delete deleted =>
    refine ⟨rfl, fun query _ => ?_, h.delete_key deleted⟩
    change live now ((self.delete_key deleted).entry query) =
      live now (Function.update self.entry deleted none query)
    rw [entry_delete_key, Function.update_apply]
  | record_hit => cases hkey
  | cleanup_handler_counters => cases hkey
  | cleanup_orphaned_counters => cases hkey

/-- One access of a run. -/
def access (self : InMemoryStorage V) (access : Access V) : Except PyError (Reply V) × InMemoryStorage V :=
  self.operate access.now access.operation

/-- With room for all its keys, the storage is an expiring map. -/
theorem outputs_access (max_keys max_counters : ℕ+) {accesses : List (Access V)}
    (hmono : accesses.Pairwise (fun first second => first.now ≤ second.now))
    (hkeys : ∀ access ∈ accesses, ∃ key, access.operation.key = some key)
    (hroom : (accesses.filterMap (fun access => access.operation.key)).dedup.length ≤ max_keys) :
    outputs access (fresh max_keys max_counters) accesses = outputs Values.perform .empty accesses := by
  let named := (accesses.filterMap (fun access => access.operation.key)).toFinset
  refine Values.outputs_eq_perform (fun _ => True) entry (fun _ => Roomy named)
    ⟨fun _ _ => rfl, nofun, ?_⟩ (fun _ _ => rfl) hmono ?_ ?_
  · exact le_trans (List.card_toFinset _).le hroom
  · intro access haccess
    obtain ⟨key, hkey⟩ := hkeys access haccess
    exact ⟨key, hkey, trivial⟩
  · rintro before access rest hsplit storage hroomy
    obtain ⟨key, hkey⟩ := hkeys access (by simp [hsplit])
    have hnamed : key ∈ named := by
      simp only [named, List.mem_toFinset, List.mem_filterMap]
      exact ⟨access, by simp [hsplit], hkey⟩
    exact hroomy.operate access.now hkey hnamed

end Refinement

end InMemoryStorage

end response_bandwidth_limiter.memory

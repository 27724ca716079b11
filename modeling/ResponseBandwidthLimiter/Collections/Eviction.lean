import ResponseBandwidthLimiter.Collections.OrderedDict
import Mathlib.Order.Defs.LinearOrder
import Mathlib.Data.List.Sort

namespace collections

section Ranking

variable {A R : Type*} [LinearOrder R] (rank : A → R) {count : Nat} {items : List A}

/-- The elements of least rank, up to a number of them. Ties keep their order. -/
def least (count : Nat) (items : List A) : List A :=
  (items.mergeSort (fun first second => rank first ≤ rank second)).take count

theorem least_subset : least rank count items ⊆ items := by
  intro element hmem
  exact List.mem_mergeSort.mp (List.mem_of_mem_take hmem)

theorem length_least : (least rank count items).length = min count items.length := by
  rw [least, List.length_take, List.length_mergeSort]

theorem nodup_map_least {B : Type*} {f : A → B} (hnodup : (items.map f).Nodup) :
    ((least rank count items).map f).Nodup := by
  have hsorted : ((items.mergeSort (fun first second => rank first ≤ rank second)).map f).Nodup :=
    ((List.mergeSort_perm items _).map f).nodup_iff.mpr hnodup
  exact hsorted.sublist ((List.take_sublist count _).map f)

/-- No element ranks below one of the least, unless it is one of them. -/
theorem rank_le_of_mem_least {chosen other : A} (hchosen : chosen ∈ least rank count items) (hother : other ∈ items)
    (hleft : other ∉ least rank count items) : rank chosen ≤ rank other := by
  have htrans : ∀ first second third, decide (rank first ≤ rank second) = true →
      decide (rank second ≤ rank third) = true → decide (rank first ≤ rank third) = true := by
    intro first second third hfirst hsecond
    exact decide_eq_true ((of_decide_eq_true hfirst).trans (of_decide_eq_true hsecond))
  have htotal : ∀ first second, (decide (rank first ≤ rank second) || decide (rank second ≤ rank first)) = true := by
    intro first second
    simpa using le_total (rank first) (rank second)
  have hsorted := List.pairwise_mergeSort htrans htotal items
  have hmem : other ∈ items.mergeSort (fun first second => rank first ≤ rank second) := List.mem_mergeSort.mpr hother
  rw [← List.take_append_drop count (items.mergeSort _)] at hsorted hmem
  have hdropped := (List.mem_append.mp hmem).resolve_left hleft
  exact of_decide_eq_true ((List.pairwise_append.mp hsorted).2.2 chosen hchosen other hdropped)

end Ranking

namespace OrderedDict

variable {K V : Type*} [DecidableEq K]

theorem keys_eraseAll (self : OrderedDict K V) (stale : List K) :
    (self.eraseAll stale).keys = self.keys.filter (· ∉ stale) := by
  unfold eraseAll
  induction stale generalizing self with
  | nil => simp
  | cons key rest ih =>
    rw [List.foldl_cons, ih, keys_erase, List.filter_filter]
    apply List.filter_congr
    intro query _
    by_cases hrest : query ∈ rest <;> simp [hrest]

theorem mem_keys_eraseAll {self : OrderedDict K V} {stale : List K} {query : K} :
    query ∈ (self.eraseAll stale).keys ↔ query ∈ self.keys ∧ query ∉ stale := by
  rw [keys_eraseAll, List.mem_filter, decide_eq_true_eq]

omit [DecidableEq K] in
theorem keys_nodup (self : OrderedDict K V) : self.keys.Nodup := self.nodup_keys

/-- Stale keys are exactly what is missing afterwards. -/
theorem filter_not_mem_keys_eraseAll {self : OrderedDict K V} {stale : List K} (hnodup : stale.Nodup)
    (hstored : ∀ key ∈ stale, key ∈ self.keys) :
    (self.keys.filter (· ∉ (self.eraseAll stale).keys)).Perm stale := by
  rw [List.perm_ext_iff_of_nodup (self.keys_nodup.filter _) hnodup]
  intro query
  rw [List.mem_filter, decide_eq_true_eq, mem_keys_eraseAll]
  have hquery := hstored query
  tauto

theorem size_eraseAll {self : OrderedDict K V} {stale : List K} (hnodup : stale.Nodup)
    (hstored : ∀ key ∈ stale, key ∈ self.keys) : (self.eraseAll stale).size + stale.length = self.size := by
  have hmissing : (self.keys.filter (· ∈ stale)).Perm stale := by
    rw [List.perm_ext_iff_of_nodup (self.keys_nodup.filter _) hnodup]
    intro query
    rw [List.mem_filter, decide_eq_true_eq]
    exact ⟨And.right, fun hquery => ⟨hstored query hquery, hquery⟩⟩
  have hsplit := (List.filter_append_perm (fun key => decide (key ∈ stale)) self.keys).length_eq
  rw [← keys_length, keys_eraseAll, ← hmissing.length_eq, ← self.keys_length, ← hsplit, List.length_append]
  simp only [decide_not]
  omega

theorem size_eraseAll_le (self : OrderedDict K V) (stale : List K) : (self.eraseAll stale).size ≤ self.size := by
  rw [← keys_length, ← keys_length, keys_eraseAll]
  exact List.length_filter_le _ _

omit [DecidableEq K] in
@[simp] theorem size_mapValues (self : OrderedDict K V) (f : K → V → V) : (self.mapValues f).size = self.size :=
  List.length_map _

theorem size_erase_lt {self : OrderedDict K V} {key : K} (hstored : key ∈ self.keys) :
    (self.erase key).size < self.size := by
  have hsize : (self.eraseAll [key]).size + [key].length = self.size :=
    size_eraseAll (List.nodup_singleton key) (by simpa using hstored)
  simp only [eraseAll, List.foldl_cons, List.foldl_nil, List.length_singleton] at hsize
  omega

theorem size_set (self : OrderedDict K V) (key : K) (value : V) :
    (self.set key value).size = if key ∈ self.keys then self.size else self.size + 1 := by
  unfold size
  split
  · next hmem => rw [items_set_of_mem hmem, List.length_map]
  · next hmem => rw [items_set_of_not_mem hmem, List.length_append, List.length_singleton]

end OrderedDict

end collections

import ResponseBandwidthLimiter.Backends.Memory.Storage
import ResponseBandwidthLimiter.Collections.Runs
import ResponseBandwidthLimiter.SlidingWindow.Admission
import Mathlib.Data.Finset.Card
import Mathlib.Data.List.Dedup

open collections sliding_window
open response_bandwidth_limiter.base response_bandwidth_limiter.models

namespace response_bandwidth_limiter.memory

variable {V : Type}

namespace InMemoryStorage

/-- The stored hits of a counter, none when it has no entry. -/
def history (self : InMemoryStorage V) (counter_key : CounterKey) : List ℚ :=
  (self.request_counters.get? counter_key).getD []

@[simp] theorem history_store_history_self (self : InMemoryStorage V) (counter_key : CounterKey)
    (stored : List ℚ) : (self.store_history counter_key stored).history counter_key = stored := by
  simp [history, store_history]

theorem history_store_history_of_ne (self : InMemoryStorage V) {counter_key query : CounterKey}
    (stored : List ℚ) (hne : query ≠ counter_key) :
    (self.store_history counter_key stored).history query = self.history query := by
  simp only [history, store_history, OrderedDict.get?_set_of_ne _ _ hne]

@[simp] theorem history_fresh (max_keys max_counters : ℕ+) (counter_key : CounterKey) :
    (fresh max_keys max_counters : InMemoryStorage V).history counter_key = [] := rfl

/-- The cap on stored hits as a number of entries. -/
def capacity (max_hits : Option ℤ) : Option Nat := max_hits.map Int.toNat

/-- The cap that the evaluator passes for a rule is one more than its count. -/
theorem capacity_rule (rule : Rule) : capacity (some (rule.count + 1)) = some (rule.count.toNat + 1) := by
  have hpos := rule.count_pos
  simp only [capacity, Option.map_some, Option.some.injEq]
  omega

theorem validate_max_hits_rule (rule : Rule) : validate_max_hits (some (rule.count + 1)) = .ok () := by
  have hpos := rule.count_pos
  exact validate_limit_ok_iff.mpr (by omega)

theorem cleanup_counter_eq_prune (history : List ℚ) (now : ℚ) (window_seconds : ℤ) :
    cleanup_counter history now window_seconds = prune (now - window_seconds) history := rfl

theorem below_cap_eq_has_room (max_hits : Option ℤ) (history : List ℚ) :
    below_cap max_hits history = has_room (capacity max_hits) history.length := by
  cases max_hits with
  | none => rfl
  | some limit =>
    simp only [below_cap, has_room, capacity, Option.map_some, decide_eq_decide]
    omega

/-- The deque after a hit is the sliding window's history. -/
theorem stored_eq_record (history : List ℚ) (now : ℚ) (window_seconds : ℤ) (max_hits : Option ℤ) :
    (if below_cap max_hits (cleanup_counter history now window_seconds) then
        cleanup_counter history now window_seconds ++ [now]
      else cleanup_counter history now window_seconds) =
      record (window_seconds : ℚ) (capacity max_hits) history now := by
  rw [below_cap_eq_has_room, cleanup_counter_eq_prune]
  rfl

/-- A hit on a counter for which no room has to be made changes that counter's
    history and nothing else. -/
theorem record_hit_eq (self : InMemoryStorage V) (now : ℚ) (request_key handler_name : String)
    (rule_index : Nat) (window_seconds : ℤ) {max_hits : Option ℤ}
    (hvalid : validate_max_hits max_hits = .ok ())
    (hroom : (request_key, handler_name, rule_index) ∈ self.request_counters.keys ∨
      self.request_counters.size < self.max_counters) :
    self.record_hit now request_key handler_name rule_index window_seconds max_hits =
      let stored := record (window_seconds : ℚ) (capacity max_hits)
        (self.history (request_key, handler_name, rule_index)) now
      (.ok (hit_result now max_hits stored),
        self.store_history (request_key, handler_name, rule_index) stored) := by
  have hhistory : self.counter_history (request_key, handler_name, rule_index) =
      (self.history (request_key, handler_name, rule_index), self) := by
    unfold counter_history history
    cases hget : self.request_counters.get? (request_key, handler_name, rule_index) with
    | some stored => rfl
    | none =>
      have habsent := OrderedDict.get?_eq_none_iff.mp hget
      have hsize := hroom.resolve_left habsent
      simp [evict_counters_if_needed, hsize]
  simp only [record_hit, hvalid, hhistory, stored_eq_record]

theorem foldl_delete_key_request_counters (self : InMemoryStorage V) (deleted : List String) :
    (deleted.foldl delete_key self).request_counters = self.request_counters := by
  induction deleted generalizing self with
  | nil => rfl
  | cons key rest ih => exact ih (self.delete_key key)

theorem foldl_delete_key_max_counters (self : InMemoryStorage V) (deleted : List String) :
    (deleted.foldl delete_key self).max_counters = self.max_counters := by
  induction deleted generalizing self with
  | nil => rfl
  | cons key rest ih => exact ih (self.delete_key key)

/-- Cleaning up a handler removes its counters and no others. -/
theorem get?_cleanup_handler_counters (self : InMemoryStorage V) (handler_name : String) (counter_key : CounterKey) :
    (self.cleanup_handler_counters handler_name).request_counters.get? counter_key =
      if counter_key.2.1 = handler_name then none else self.request_counters.get? counter_key := by
  simp only [cleanup_handler_counters, foldl_delete_key_request_counters, OrderedDict.get?_eraseAll, List.mem_filter]
  cases hget : self.request_counters.get? counter_key with
  | none => simp
  | some stored =>
    have hmem : counter_key ∈ self.request_counters.keys := OrderedDict.mem_keys_iff.mpr ⟨stored, hget⟩
    by_cases hhandler : counter_key.2.1 = handler_name <;> simp [hmem, hhandler]

theorem history_cleanup_handler_counters (self : InMemoryStorage V) (handler_name : String)
    (counter_key : CounterKey) :
    (self.cleanup_handler_counters handler_name).history counter_key =
      if counter_key.2.1 = handler_name then [] else self.history counter_key := by
  rw [history, get?_cleanup_handler_counters]
  split <;> rfl

/-- Cleaning up orphans empties the counters without an active rule and prunes
    the other ones with the windows of their rules. -/
theorem history_cleanup_orphaned_counters (self : InMemoryStorage V) (now : ℚ)
    (active_rules : OrderedDict String (List Rule)) (counter_key : CounterKey) :
    (self.cleanup_orphaned_counters now active_rules).history counter_key =
      (active_window active_rules counter_key).elim []
        (fun window_seconds => prune (now - window_seconds) (self.history counter_key)) := by
  simp only [history, cleanup_orphaned_counters, OrderedDict.get?_eraseAll, OrderedDict.mem_keys_filter_iff,
    OrderedDict.get?_mapValues]
  cases self.request_counters.get? counter_key with
  | none => cases active_window active_rules counter_key <;> simp
  | some stored =>
    cases hwindow : active_window active_rules counter_key with
    | none => simp
    | some window_seconds =>
      by_cases hempty : prune (now - window_seconds) stored = []
      · simp [cleanup_counter_eq_prune, hempty]
      · simp [cleanup_counter_eq_prune, hempty]

end InMemoryStorage

/-- One `record_hit` call of the policy evaluator: the counter, the rule, and
    the clock reading. -/
structure HitCall where
  request_key : String
  handler_name : String
  rule_index : Nat
  rule : Rule
  now : ℚ

def HitCall.counter_key (self : HitCall) : CounterKey :=
  (self.request_key, self.handler_name, self.rule_index)

/-- The cap the evaluator passes. -/
def HitCall.max_hits (self : HitCall) : Option ℤ := some (self.rule.count + 1)

abbrev HitOutcome := HitCall × Except PyError SlidingWindowResult

/-- The hit counted at most as many hits as the rule allows. -/
def HitOutcome.admitted (self : HitOutcome) : Bool :=
  match self.2 with
  | .ok result => (result.hit_count : ℤ) ≤ self.1.rule.count
  | .error _ => false

/-- The time of a call and the count it reported. -/
def HitOutcome.reported (self : HitOutcome) : ℚ × Nat :=
  (self.1.now,
    match self.2 with
    | .ok result => result.hit_count
    | .error _ => 0)

namespace InMemoryStorage

/-- A call with the cap `cap` gives it, and its outcome. -/
def hit (cap : HitCall → Option ℤ) (self : InMemoryStorage V) (call : HitCall) : HitOutcome × InMemoryStorage V :=
  let (result, next) := self.record_hit call.now call.request_key call.handler_name call.rule_index
    call.rule.window_seconds (cap call)
  ((call, result), next)

/-- The outcomes of a sequence of calls, in order. -/
def issue (cap : HitCall → Option ℤ) (self : InMemoryStorage V) (calls : List HitCall) : List HitOutcome :=
  outputs (hit cap) self calls

/-- The storage after a sequence of calls. -/
def drive (cap : HitCall → Option ℤ) (self : InMemoryStorage V) (calls : List HitCall) : InMemoryStorage V :=
  settle (hit cap) self calls

/-- The calls never need more counters than the storage holds. -/
def Fits (self : InMemoryStorage V) (calls : List HitCall) : Prop :=
  (self.request_counters.keys ++ calls.map HitCall.counter_key).toFinset.card ≤ self.max_counters

/-- The results of the calls on one counter, computed from its history alone. -/
def counter_outcomes (cap : HitCall → Option ℤ) (history : List ℚ) : List HitCall → List HitOutcome
  | [] => []
  | call :: rest =>
    let stored := record (call.rule.window_seconds : ℚ) (capacity (cap call)) history call.now
    (call, .ok (hit_result call.now (cap call) stored)) :: counter_outcomes cap stored rest

theorem fits_room {self : InMemoryStorage V} {call : HitCall} {rest : List HitCall}
    (hfits : self.Fits (call :: rest)) :
    call.counter_key ∈ self.request_counters.keys ∨ self.request_counters.size < self.max_counters := by
  by_cases hmem : call.counter_key ∈ self.request_counters.keys
  · exact Or.inl hmem
  · right
    have hnodup : (call.counter_key :: self.request_counters.keys).Nodup :=
      List.nodup_cons.mpr ⟨hmem, self.request_counters.nodup_keys⟩
    have hsubset : (call.counter_key :: self.request_counters.keys).toFinset ⊆
        (self.request_counters.keys ++ (call :: rest).map HitCall.counter_key).toFinset := by
      intro key hkey
      simp only [List.mem_toFinset, List.mem_cons, List.mem_append, List.map_cons] at hkey ⊢
      tauto
    have hcard := (Finset.card_le_card hsubset).trans hfits
    rw [List.toFinset_card_of_nodup hnodup, List.length_cons, OrderedDict.keys_length] at hcard
    omega

/-- Counters in use after a call are those in use before and its own. -/
theorem Fits.tail {self : InMemoryStorage V} {call : HitCall} {rest : List HitCall}
    (hfits : self.Fits (call :: rest)) (stored : List ℚ) :
    (self.store_history call.counter_key stored).Fits rest := by
  unfold Fits at hfits ⊢
  refine le_trans (Finset.card_le_card ?_) hfits
  intro key hkey
  simp only [store_history, List.mem_toFinset, List.mem_append, OrderedDict.mem_keys_set, List.map_cons,
    List.mem_cons] at hkey ⊢
  tauto

theorem Fits.of_cons {self : InMemoryStorage V} {call : HitCall} {rest : List HitCall}
    (hfits : self.Fits (call :: rest)) : self.Fits rest := by
  unfold Fits at hfits ⊢
  refine le_trans (Finset.card_le_card ?_) hfits
  intro key hkey
  simp only [List.mem_toFinset, List.mem_append, List.map_cons, List.mem_cons] at hkey ⊢
  tauto

theorem Fits.of_append {self : InMemoryStorage V} {before after : List HitCall}
    (hfits : self.Fits (before ++ after)) : self.Fits before := by
  unfold Fits at hfits ⊢
  refine le_trans (Finset.card_le_card ?_) hfits
  intro key hkey
  simp only [List.mem_toFinset, List.mem_append, List.map_append] at hkey ⊢
  tauto

theorem fits_fresh_iff {max_keys max_counters : ℕ+} {calls : List HitCall} :
    (fresh max_keys max_counters : InMemoryStorage V).Fits calls ↔
      (calls.map HitCall.counter_key).dedup.length ≤ max_counters := by
  unfold Fits fresh
  rw [OrderedDict.keys_empty, List.nil_append, List.card_toFinset]

/-- Calls on other counters are invisible: the results of one counter's calls
    depend on its own history alone. -/
theorem issue_filter {cap : HitCall → Option ℤ} {calls : List HitCall}
    (hvalid : ∀ call ∈ calls, validate_max_hits (cap call) = .ok ())
    {self : InMemoryStorage V} (hfits : self.Fits calls) (counter_key : CounterKey) :
    (self.issue cap calls).filter (fun outcome => outcome.1.counter_key = counter_key) =
      counter_outcomes cap (self.history counter_key)
        (calls.filter (fun call => call.counter_key = counter_key)) := by
  induction calls generalizing self with
  | nil => rfl
  | cons call rest ih =>
    have hhit := self.record_hit_eq call.now call.request_key call.handler_name call.rule_index
      call.rule.window_seconds (hvalid call List.mem_cons_self) (fits_room hfits)
    have hrest := ih (fun later hlater => hvalid later (List.mem_cons_of_mem _ hlater))
      (hfits.tail (record (call.rule.window_seconds : ℚ) (capacity (cap call))
        (self.history call.counter_key) call.now))
    simp only [issue, outputs, hit, hhit]
    change List.filter _ ((call, _) :: issue cap (self.store_history call.counter_key _) rest) = _
    rw [List.filter_cons, List.filter_cons]
    by_cases hown : call.counter_key = counter_key
    · subst hown
      rw [history_store_history_self] at hrest
      simp only [decide_true, if_true, counter_outcomes]
      exact congrArg₂ List.cons rfl hrest
    · rw [history_store_history_of_ne _ _ (fun heq => hown heq.symm)] at hrest
      simp only [hown, decide_false, Bool.false_eq_true, if_false]
      exact hrest

@[simp] theorem issue_map_fst (cap : HitCall → Option ℤ) (self : InMemoryStorage V)
    (calls : List HitCall) : (self.issue cap calls).map Prod.fst = calls := by
  induction calls generalizing self with
  | nil => rfl
  | cons call rest ih => exact congrArg (call :: ·) (ih _)

/-- The outcome of a call is its result in the state the earlier calls left. -/
theorem issue_getElem? (cap : HitCall → Option ℤ) (self : InMemoryStorage V) (before after : List HitCall)
    (call : HitCall) :
    (self.issue cap (before ++ call :: after))[before.length]? =
      some (call, ((self.drive cap before).record_hit call.now call.request_key call.handler_name
        call.rule_index call.rule.window_seconds (cap call)).1) :=
  outputs_getElem? (hit cap) self before call after

/-- The counters of the earlier part of a run fit, and the rest still fits
    afterwards. -/
theorem Fits.drive {cap : HitCall → Option ℤ} (hvalid : ∀ call, validate_max_hits (cap call) = .ok ())
    {self : InMemoryStorage V} {before after : List HitCall} (hfits : self.Fits (before ++ after)) :
    (self.drive cap before).Fits after := by
  induction before generalizing self with
  | nil => exact hfits
  | cons call rest ih =>
    have hhit := self.record_hit_eq call.now call.request_key call.handler_name call.rule_index
      call.rule.window_seconds (hvalid call) (fits_room hfits)
    simp only [InMemoryStorage.drive, settle_cons, hit, hhit]
    exact ih (hfits.tail _)

/-- A counter's history after a run is its sliding window replayed over its own
    calls. -/
theorem drive_history {cap : HitCall → Option ℤ} (hvalid : ∀ call, validate_max_hits (cap call) = .ok ())
    {counter_key : CounterKey} {window_seconds : ℤ} {max_hits : Option ℤ} {calls : List HitCall}
    (hcalls : ∀ call ∈ calls, call.counter_key = counter_key →
      call.rule.window_seconds = window_seconds ∧ cap call = max_hits)
    {self : InMemoryStorage V} (hfits : self.Fits calls) :
    (self.drive cap calls).history counter_key =
      replay (window_seconds : ℚ) (capacity max_hits) (self.history counter_key)
        ((calls.filter (fun call => call.counter_key = counter_key)).map HitCall.now) := by
  induction calls generalizing self with
  | nil => rfl
  | cons call rest ih =>
    have hhit := self.record_hit_eq call.now call.request_key call.handler_name call.rule_index
      call.rule.window_seconds (hvalid call) (fits_room hfits)
    have hrest := ih (fun later hlater => hcalls later (List.mem_cons_of_mem _ hlater))
      (hfits.tail (record (call.rule.window_seconds : ℚ) (capacity (cap call))
        (self.history call.counter_key) call.now))
    simp only [InMemoryStorage.drive, settle_cons, hit, hhit]
    refine hrest.trans ?_
    by_cases hown : call.counter_key = counter_key
    · obtain ⟨hwindow, hcap⟩ := hcalls call List.mem_cons_self hown
      subst hown
      simp [hwindow, hcap]
    · rw [history_store_history_of_ne _ _ (fun heq => hown heq.symm)]
      simp [hown]

theorem mem_counter_outcomes {cap : HitCall → Option ℤ} {history : List ℚ} {calls : List HitCall}
    {outcome : HitOutcome} (hmem : outcome ∈ counter_outcomes cap history calls) :
    outcome.1 ∈ calls ∧ ∃ result, outcome.2 = .ok result := by
  induction calls generalizing history with
  | nil => simp [counter_outcomes] at hmem
  | cons call rest ih =>
    rcases List.mem_cons.mp hmem with rfl | hrest
    · exact ⟨List.mem_cons_self, _, rfl⟩
    · obtain ⟨hcall, hresult⟩ := ih hrest
      exact ⟨List.mem_cons_of_mem _ hcall, hresult⟩

/-- On one counter with a fixed window and cap, the reported counts are those of
    the sliding window. -/
theorem counter_outcomes_reported {cap : HitCall → Option ℤ} {window_seconds : ℤ} {max_hits : Option ℤ}
    {calls : List HitCall}
    (hcalls : ∀ call ∈ calls, call.rule.window_seconds = window_seconds ∧ cap call = max_hits)
    (history : List ℚ) :
    (counter_outcomes cap history calls).map HitOutcome.reported =
      hit_counts (window_seconds : ℚ) (capacity max_hits) history (calls.map HitCall.now) := by
  induction calls generalizing history with
  | nil => rfl
  | cons call rest ih =>
    obtain ⟨hwindow, hcap⟩ := hcalls call List.mem_cons_self
    have hrest := ih (fun later hlater => hcalls later (List.mem_cons_of_mem _ hlater))
    simp only [counter_outcomes, List.map_cons, hit_counts, hwindow, hcap, hrest, HitOutcome.reported,
      hit_result]

end InMemoryStorage

end response_bandwidth_limiter.memory

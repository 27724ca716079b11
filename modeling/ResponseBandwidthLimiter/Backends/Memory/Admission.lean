import ResponseBandwidthLimiter.Backends.Memory.Counters
import Mathlib.Data.List.Basic

open collections sliding_window
open response_bandwidth_limiter.base response_bandwidth_limiter.models

namespace response_bandwidth_limiter.memory

variable {V : Type}

namespace InMemoryStorage

theorem validate_max_hits_call (call : HitCall) : validate_max_hits call.max_hits = .ok () :=
  validate_max_hits_rule call.rule

theorem Fits.filter {self : InMemoryStorage V} {calls : List HitCall} (hfits : self.Fits calls)
    (keep : HitCall → Bool) : self.Fits (calls.filter keep) := by
  unfold Fits at hfits ⊢
  refine le_trans (Finset.card_le_card ?_) hfits
  intro key hkey
  simp only [List.mem_toFinset, List.mem_append, List.mem_map, List.mem_filter] at hkey ⊢
  rcases hkey with hkey | ⟨call, ⟨hcall, _⟩, rfl⟩
  · exact Or.inl hkey
  · exact Or.inr ⟨call, hcall, rfl⟩

/-- Dropping the calls on other counters leaves one counter's results as they
    are. -/
theorem issue_own_calls {cap : HitCall → Option ℤ} (hvalid : ∀ call, validate_max_hits (cap call) = .ok ())
    {self : InMemoryStorage V} {calls : List HitCall} (hfits : self.Fits calls) (counter_key : CounterKey) :
    (self.issue cap calls).filter (fun outcome => outcome.1.counter_key = counter_key) =
      self.issue cap (calls.filter (fun call => call.counter_key = counter_key)) := by
  have hown := issue_filter (fun call _ => hvalid call)
    (hfits.filter (fun call => call.counter_key = counter_key)) counter_key
  have hall : (self.issue cap (calls.filter (fun call => call.counter_key = counter_key))).filter
      (fun outcome => outcome.1.counter_key = counter_key) =
      self.issue cap (calls.filter (fun call => call.counter_key = counter_key)) := by
    rw [List.filter_eq_self]
    intro outcome hmem
    have hcall := List.mem_map_of_mem (f := Prod.fst) hmem
    rw [issue_map_fst, List.mem_filter] at hcall
    exact hcall.2
  rw [hall, List.filter_filter] at hown
  rw [issue_filter (fun call _ => hvalid call) hfits, hown]
  simp

section OneCounter

variable {counter_key : CounterKey} {rule : Rule} {calls : List HitCall}

/-- The calls on one counter all carry the window and the count of `rule`. -/
def UsesRule (counter_key : CounterKey) (rule : Rule) (calls : List HitCall) : Prop :=
  ∀ call ∈ calls, call.counter_key = counter_key →
    call.rule.window_seconds = rule.window_seconds ∧ call.rule.count = rule.count

theorem UsesRule.max_hits (hrule : UsesRule counter_key rule calls) :
    ∀ call ∈ calls, call.counter_key = counter_key →
      call.rule.window_seconds = rule.window_seconds ∧ call.max_hits = some (rule.count + 1) := by
  intro call hcall hown
  obtain ⟨hwindow, hcount⟩ := hrule call hcall hown
  exact ⟨hwindow, by rw [HitCall.max_hits, hcount]⟩

theorem UsesRule.own (hrule : UsesRule counter_key rule calls) :
    ∀ call ∈ calls.filter (fun call => call.counter_key = counter_key),
      call.rule.window_seconds = rule.window_seconds ∧ call.max_hits = some (rule.count + 1) := by
  intro call hcall
  obtain ⟨hmem, hkey⟩ := List.mem_filter.mp hcall
  exact hrule.max_hits call hmem (by simpa using hkey)

/-- On its own counter, being admitted is having reported at most the rule's
    count. -/
theorem admitted_iff_reported {cap : HitCall → Option ℤ} (hrule : UsesRule counter_key rule calls)
    {history : List ℚ} {outcome : HitOutcome}
    (hmem : outcome ∈ counter_outcomes cap history
      (calls.filter (fun call => call.counter_key = counter_key))) :
    outcome.admitted = true ↔ outcome.reported.2 ≤ rule.count.toNat := by
  obtain ⟨hcall, result, hresult⟩ := mem_counter_outcomes hmem
  obtain ⟨hcalls, hkey⟩ := List.mem_filter.mp hcall
  have hcount := (hrule _ hcalls (by simpa using hkey)).2
  have hpos := rule.count_pos
  simp only [HitOutcome.admitted, HitOutcome.reported, hresult, hcount, decide_eq_true_eq]
  omega

/-- No window of a counter holds more admitted calls than its rule allows. -/
theorem admitted_calls_le (hmono : calls.Pairwise (fun first second => first.now ≤ second.now))
    (hrule : UsesRule counter_key rule calls) {self : InMemoryStorage V} (hfits : self.Fits calls)
    (hempty : self.history counter_key = []) (t : ℚ) :
    ((self.issue HitCall.max_hits calls).countP (fun outcome =>
      outcome.1.counter_key = counter_key ∧ t - rule.window_seconds < outcome.1.now ∧
        outcome.1.now ≤ t ∧ outcome.admitted) : ℤ) ≤ rule.count := by
  have hsorted : Sorted ((calls.filter (fun call => call.counter_key = counter_key)).map HitCall.now) :=
    List.pairwise_map.mpr (hmono.sublist List.filter_sublist)
  have hbound := admitted_within_le (rule.window_seconds : ℚ) rule.count.toNat hsorted t
  rw [← capacity_rule, ← counter_outcomes_reported hrule.own] at hbound
  have hfilter := issue_filter (fun call _ => validate_max_hits_call call) hfits counter_key
  rw [hempty] at hfilter
  have hcount : (self.issue HitCall.max_hits calls).countP (fun outcome =>
      outcome.1.counter_key = counter_key ∧ t - rule.window_seconds < outcome.1.now ∧
        outcome.1.now ≤ t ∧ outcome.admitted) =
      (within (rule.window_seconds : ℚ) t (sliding_window.admitted rule.count.toNat
        ((counter_outcomes HitCall.max_hits []
          (calls.filter (fun call => call.counter_key = counter_key))).map HitOutcome.reported))).length :=
    calc
      _ = (counter_outcomes HitCall.max_hits []
            (calls.filter (fun call => call.counter_key = counter_key))).countP (fun outcome =>
          t - rule.window_seconds < outcome.1.now ∧ outcome.1.now ≤ t ∧ outcome.admitted) := by
        rw [← hfilter, List.countP_filter]
        apply List.countP_congr
        intro outcome _
        simp only [decide_eq_true_eq, Bool.and_eq_true]
        exact and_comm
      _ = _ := by
        simp only [within, sliding_window.admitted, ← List.countP_eq_length_filter, List.countP_map,
          List.countP_filter]
        apply List.countP_congr
        intro outcome hmem
        have hadmitted := admitted_iff_reported hrule hmem
        simp only [decide_eq_true_eq, Function.comp_apply, Bool.and_eq_true, hadmitted]
        exact and_assoc.symm
  have hpos := rule.count_pos
  omega

/-- The count a call reports, as the sliding window's history before it. -/
theorem issue_outcome {cap : HitCall → Option ℤ} (hvalid : ∀ call, validate_max_hits (cap call) = .ok ())
    {max_hits : Option ℤ} {before after : List HitCall} {call : HitCall}
    (hcalls : ∀ other ∈ before ++ call :: after, other.counter_key = call.counter_key →
      other.rule.window_seconds = call.rule.window_seconds ∧ cap other = max_hits)
    {self : InMemoryStorage V} (hfits : self.Fits (before ++ call :: after))
    (hempty : self.history call.counter_key = []) :
    (self.issue cap (before ++ call :: after))[before.length]? =
      some (call, .ok (hit_result call.now max_hits
        (record (call.rule.window_seconds : ℚ) (capacity max_hits)
          (replay (call.rule.window_seconds : ℚ) (capacity max_hits) []
            ((before.filter (fun other => other.counter_key = call.counter_key)).map HitCall.now)) call.now))) := by
  have hbefore := drive_history hvalid
    (fun other hother => hcalls other (List.mem_append_left _ hother))
    (show self.Fits before from hfits.of_append)
  have hrest := Fits.drive hvalid hfits
  have hhit := (self.drive cap before).record_hit_eq call.now call.request_key call.handler_name
    call.rule_index call.rule.window_seconds (hvalid call) (fits_room hrest)
  have hcap := (hcalls call (by simp) rfl).2
  rw [issue_getElem?, hhit]
  change some (call, Except.ok (hit_result call.now (cap call) (record _ (capacity (cap call))
    ((self.drive cap before).history call.counter_key) call.now))) = _
  rw [hbefore, hempty, hcap]

end OneCounter

section Runs

variable {calls : List HitCall}

/-- Each counter is always used with one window and one count. -/
def OneRulePerCounter (calls : List HitCall) : Prop :=
  ∀ first ∈ calls, ∀ second ∈ calls, first.counter_key = second.counter_key →
    first.rule.window_seconds = second.rule.window_seconds ∧ first.rule.count = second.rule.count

/-- The calls on the counter of `call` made inside its window. -/
def window_calls (call : HitCall) (calls : List HitCall) : Nat :=
  calls.countP (fun other => other.counter_key = call.counter_key ∧
    call.now - call.rule.window_seconds < other.now ∧ other.now ≤ call.now)

theorem window_calls_eq (call : HitCall) (before : List HitCall) :
    window_calls call (before ++ [call]) = (within (call.rule.window_seconds : ℚ) call.now
      ((before.filter (fun other => other.counter_key = call.counter_key)).map HitCall.now ++
        [call.now])).length := by
  simp only [window_calls, within, List.filter_append, List.length_append, List.countP_append,
    ← List.countP_eq_length_filter, List.countP_map, List.countP_filter, List.countP_singleton]
  congr 1
  · apply List.countP_congr
    intro other _
    simp only [decide_eq_true_eq, Function.comp_apply, Bool.and_eq_true]
    exact and_comm
  · simp

private theorem own_times_sorted {before after : List HitCall} {call : HitCall}
    (hmono : (before ++ call :: after).Pairwise (fun first second => first.now ≤ second.now)) :
    Sorted ((before.filter (fun other => other.counter_key = call.counter_key)).map HitCall.now ++
      [call.now]) := by
  obtain ⟨hbefore, _, hlater⟩ := List.pairwise_append.mp hmono
  refine List.pairwise_append.mpr ⟨?_, List.pairwise_singleton _ _, ?_⟩
  · exact List.pairwise_map.mpr (hbefore.sublist List.filter_sublist)
  · intro time htime last hlast
    obtain ⟨other, hother, rfl⟩ := List.mem_map.mp htime
    rw [List.mem_singleton] at hlast
    exact hlast ▸ hlater other (List.mem_filter.mp hother).1 call List.mem_cons_self

/-- A call is admitted as soon as its window holds at most `count` calls of its
    counter, rejected ones and itself included. -/
theorem admitted_of_window_calls (hmono : calls.Pairwise (fun first second => first.now ≤ second.now))
    (hrules : OneRulePerCounter calls) {self : InMemoryStorage V} (hfits : self.Fits calls)
    (hempty : ∀ counter_key, self.history counter_key = []) {before after : List HitCall} {call : HitCall}
    (hcalls : calls = before ++ call :: after)
    (hfew : (window_calls call (before ++ [call]) : ℤ) ≤ call.rule.count) :
    ∃ outcome, (self.issue HitCall.max_hits calls)[before.length]? = some outcome ∧
      outcome.1 = call ∧ outcome.admitted = true := by
  subst hcalls
  have hcall : call ∈ before ++ call :: after := by simp
  have hrule : UsesRule call.counter_key call.rule (before ++ call :: after) :=
    fun other hother hkey => hrules other hother call hcall hkey
  refine ⟨_, issue_outcome validate_max_hits_call hrule.max_hits hfits (hempty _), rfl, ?_⟩
  have hpos : (0 : ℚ) < call.rule.window_seconds := by exact_mod_cast call.rule.window_seconds_pos
  have hlength := record_replay_length_le hpos (capacity call.max_hits) (own_times_sorted hmono)
  rw [← window_calls_eq] at hlength
  change decide (((record _ _ _ _).length : ℤ) ≤ call.rule.count) = true
  rw [decide_eq_true_eq]
  exact (Int.ofNat_le.mpr hlength).trans hfew

/-- Without a cap a call reports exactly the calls of its window. -/
theorem uncapped_outcome (hmono : calls.Pairwise (fun first second => first.now ≤ second.now))
    (hrules : OneRulePerCounter calls) {self : InMemoryStorage V} (hfits : self.Fits calls)
    (hempty : ∀ counter_key, self.history counter_key = []) {before after : List HitCall} {call : HitCall}
    (hcalls : calls = before ++ call :: after) :
    ∃ result, (self.issue (fun _ => none) calls)[before.length]? = some (call, .ok result) ∧
      result.hit_count = window_calls call (before ++ [call]) := by
  subst hcalls
  have hcall : call ∈ before ++ call :: after := by simp
  have huncapped : ∀ other ∈ before ++ call :: after, other.counter_key = call.counter_key →
      other.rule.window_seconds = call.rule.window_seconds ∧ (none : Option ℤ) = none :=
    fun other hother hkey => ⟨(hrules other hother call hcall hkey).1, rfl⟩
  refine ⟨_, issue_outcome (fun _ => rfl) huncapped hfits (hempty _), ?_⟩
  rw [window_calls_eq]
  exact record_replay_none_length (by exact_mod_cast call.rule.window_seconds_pos) (own_times_sorted hmono)

/-- The capped sliding window is exact. In every run of evaluator calls on a
    fresh storage, no window of a counter holds more admitted calls than its
    rule allows; a call whose window holds few enough calls is admitted, and so
    is every call the uncapped window would admit; and a counter's results are
    those of its own calls alone. -/
theorem record_hit_sliding_window_exact (max_keys max_counters : ℕ+)
    (hmono : calls.Pairwise (fun first second => first.now ≤ second.now))
    (hrules : OneRulePerCounter calls)
    (hcounters : (calls.map HitCall.counter_key).dedup.length ≤ max_counters) :
    let storage : InMemoryStorage V := fresh max_keys max_counters
    (∀ call ∈ calls, ∀ t : ℚ,
      ((storage.issue HitCall.max_hits calls).countP (fun outcome =>
        outcome.1.counter_key = call.counter_key ∧ t - call.rule.window_seconds < outcome.1.now ∧
          outcome.1.now ≤ t ∧ outcome.admitted) : ℤ) ≤ call.rule.count) ∧
    (∀ before call after, calls = before ++ call :: after →
      (window_calls call (before ++ [call]) : ℤ) ≤ call.rule.count →
      ∃ outcome, (storage.issue HitCall.max_hits calls)[before.length]? = some outcome ∧
        outcome.1 = call ∧ outcome.admitted = true) ∧
    (∀ (index : Nat) (outcome : HitOutcome), (storage.issue (fun _ => none) calls)[index]? = some outcome →
      outcome.admitted = true →
      ∃ capped : HitOutcome, (storage.issue HitCall.max_hits calls)[index]? = some capped ∧
        capped.1 = outcome.1 ∧ capped.admitted = true) ∧
    (∀ counter_key,
      (storage.issue HitCall.max_hits calls).filter (fun outcome => outcome.1.counter_key = counter_key) =
        storage.issue HitCall.max_hits (calls.filter (fun call => call.counter_key = counter_key))) := by
  intro storage
  have hfits : storage.Fits calls := fits_fresh_iff.mpr hcounters
  have hempty : ∀ counter_key, storage.history counter_key = [] := history_fresh max_keys max_counters
  refine ⟨?_, ?_, ?_, fun counter_key => issue_own_calls validate_max_hits_call hfits counter_key⟩
  · intro call hcall t
    exact admitted_calls_le hmono (fun other hother hkey => hrules other hother call hcall hkey)
      hfits (hempty _) t
  · intro before call after hcalls hfew
    exact admitted_of_window_calls hmono hrules hfits hempty hcalls hfew
  · intro index outcome houtcome hadmitted
    have hindex : index < calls.length := by
      have hlength := congrArg List.length (issue_map_fst (fun _ => none) storage calls)
      rw [List.length_map] at hlength
      exact hlength ▸ (List.getElem?_eq_some_iff.mp houtcome).1
    have hcalls : calls = calls.take index ++ calls[index] :: calls.drop (index + 1) := by
      rw [List.getElem_cons_drop, List.take_append_drop]
    have hposition : (calls.take index).length = index := List.length_take_of_le hindex.le
    obtain ⟨result, hresult, hcount⟩ := uncapped_outcome hmono hrules hfits hempty hcalls
    rw [hposition, houtcome, Option.some.injEq] at hresult
    subst hresult
    simp only [HitOutcome.admitted, decide_eq_true_eq, hcount] at hadmitted
    have hcapped := admitted_of_window_calls hmono hrules hfits hempty hcalls hadmitted
    rwa [hposition] at hcapped

/-- Three calls by two clients under a rule of one hit a minute: the second hit
    of the first client, half a minute after its first, is over the limit. -/
def two_clients : List HitCall :=
  [⟨"192.0.2.1", "download", 0, Rule.one_per_minute, 0⟩, ⟨"192.0.2.2", "download", 0, Rule.one_per_minute, 10⟩,
    ⟨"192.0.2.1", "download", 0, Rule.one_per_minute, 30⟩]

theorem two_clients_exact :
    OneRulePerCounter two_clients ∧
      (((fresh 10 10 : InMemoryStorage String).issue HitCall.max_hits two_clients).countP (fun outcome =>
        outcome.1.counter_key = ("192.0.2.1", "download", 0) ∧ 30 - 60 < outcome.1.now ∧
          outcome.1.now ≤ 30 ∧ outcome.admitted) : ℤ) ≤ 1 :=
  have hrules : OneRulePerCounter two_clients := by unfold OneRulePerCounter; decide
  have hexact := record_hit_sliding_window_exact (V := String) 10 10 (by decide) hrules (by decide)
  ⟨hrules, hexact.1 ⟨"192.0.2.1", "download", 0, Rule.one_per_minute, 0⟩ (by simp [two_clients]) 30⟩

end Runs

end InMemoryStorage

end response_bandwidth_limiter.memory

import ResponseBandwidthLimiter.Backends.Memory.Admission
import ResponseBandwidthLimiter.Backends.Memory.Histories
import ResponseBandwidthLimiter.Policy

open collections sliding_window
open response_bandwidth_limiter.base response_bandwidth_limiter.models response_bandwidth_limiter.policy

namespace response_bandwidth_limiter.memory

/-- The call of `record_hit` for a rule and its position. -/
def hit_call (scope_identifiers : OrderedDict String String) (handler_name : String) (now : ℚ)
    (numbered : Rule × Nat) : HitCall where
  request_key := (scope_identifiers.get? numbered.1.scope).getD ""
  handler_name := handler_name
  rule_index := numbered.2
  rule := numbered.1
  now := now

theorem nodup_positions (rules : List Rule) : (rules.zipIdx.map Prod.snd).Nodup := by
  rw [List.zipIdx_map_snd]
  exact List.nodup_range'

/-- A call as an access. -/
def HitCall.access {V : Type} (self : HitCall) : Access V :=
  ⟨self.now, .record_hit self.request_key self.handler_name self.rule_index self.rule.window_seconds self.max_hits⟩

/-- What a call's outcome adds to the rules over their limit. -/
def HitOutcome.candidate (self : HitOutcome) : Option CandidateAction :=
  match self.2 with
  | .ok result =>
    (verdict self.1.rule result).map (fun matched => ⟨matched.rule, matched.retry_after, self.1.rule_index⟩)
  | .error _ => none

namespace InMemoryStorage

variable {V : Type} {scope_identifiers : OrderedDict String String} {handler_name : String} {now : ℚ}

/-- The history a call leaves in its counter. -/
def after_call (self : InMemoryStorage V) (call : HitCall) : List ℚ :=
  record (call.rule.window_seconds : ℚ) (capacity call.max_hits) (self.history call.counter_key) call.now

theorem record_hit_call (self : InMemoryStorage V) (call : HitCall) :
    self.record_hit call.now call.request_key call.handler_name call.rule_index call.rule.window_seconds
        call.max_hits =
      (.ok (hit_result call.now call.max_hits (self.after_call call)),
        (self.counter_history call.counter_key).2.store_history call.counter_key (self.after_call call)) :=
  self.record_hit_eq_record call.now call.counter_key call.rule.window_seconds (validate_max_hits_call call)

theorem hit_eq_after_call (self : InMemoryStorage V) (call : HitCall) :
    self.hit HitCall.max_hits call =
      ((call, .ok (hit_result call.now call.max_hits (self.after_call call))),
        (self.counter_history call.counter_key).2.store_history call.counter_key (self.after_call call)) := by
  simp only [hit, record_hit_call]

theorem issue_cons (cap : HitCall → Option ℤ) (self : InMemoryStorage V) (call : HitCall) (rest : List HitCall) :
    self.issue cap (call :: rest) = (self.hit cap call).1 :: (self.hit cap call).2.issue cap rest := rfl

theorem drive_cons (cap : HitCall → Option ℤ) (self : InMemoryStorage V) (call : HitCall) (rest : List HitCall) :
    self.drive cap (call :: rest) = (self.hit cap call).2.drive cap rest := rfl

theorem exists_of_mem_issue {cap : HitCall → Option ℤ} {calls : List HitCall} {outcome : HitOutcome}
    {self : InMemoryStorage V} (hmem : outcome ∈ self.issue cap calls) :
    ∃ before call after, calls = before ++ call :: after ∧ outcome = ((self.drive cap before).hit cap call).1 := by
  induction calls generalizing self with
  | nil => cases hmem
  | cons call rest ih =>
    rw [issue_cons] at hmem
    rcases List.mem_cons.mp hmem with rfl | hrest
    · exact ⟨[], call, rest, rfl, rfl⟩
    · obtain ⟨before, later, after, rfl, houtcome⟩ := ih hrest
      exact ⟨call :: before, later, after, rfl, houtcome⟩

theorem drive_eq_settle [PyValue V] (self : InMemoryStorage V) (calls : List HitCall) :
    self.drive HitCall.max_hits calls = settle access self (calls.map HitCall.access) := by
  simp only [drive, settle, List.foldl_map]
  rfl

theorem hit_snd_of_fits {self : InMemoryStorage V} {call : HitCall} {rest : List HitCall}
    (hfits : self.Fits (call :: rest)) :
    (self.hit HitCall.max_hits call).2 = self.store_history call.counter_key (self.after_call call) := by
  have hhit := self.record_hit_eq call.now call.request_key call.handler_name call.rule_index
    call.rule.window_seconds
    (validate_max_hits_call call) (fits_room hfits)
  simp only [hit, hhit]
  rfl

theorem after_call_store_history_of_ne (self : InMemoryStorage V) {counter_key : CounterKey} {call : HitCall}
    (hne : call.counter_key ≠ counter_key) (stored : List ℚ) :
    (self.store_history counter_key stored).after_call call = self.after_call call := by
  simp only [after_call, history_store_history_of_ne _ _ hne]

/-- With room for all of them, calls on different counters do not notice each
    other. -/
theorem issue_eq_map {calls : List HitCall} (hdistinct : (calls.map HitCall.counter_key).Nodup)
    {self : InMemoryStorage V} (hfits : self.Fits calls) :
    self.issue HitCall.max_hits calls =
      calls.map (fun call => (call, .ok (hit_result call.now call.max_hits (self.after_call call)))) := by
  induction calls generalizing self with
  | nil => rfl
  | cons call rest ih =>
    obtain ⟨hfresh, hrest⟩ := List.nodup_cons.mp hdistinct
    rw [issue_cons, hit_snd_of_fits hfits, ih hrest (hfits.tail _), hit_eq_after_call, List.map_cons]
    refine congrArg (List.cons _) (List.map_congr_left fun later hlater => ?_)
    rw [after_call_store_history_of_ne]
    exact fun heq => hfresh (heq ▸ List.mem_map_of_mem hlater)

/-- Afterwards every counter holds what its own call left, if it had one. -/
theorem history_drive {calls : List HitCall} (hdistinct : (calls.map HitCall.counter_key).Nodup)
    {self : InMemoryStorage V} (hfits : self.Fits calls) (counter_key : CounterKey) :
    (∀ call ∈ calls, call.counter_key = counter_key →
      (self.drive HitCall.max_hits calls).history counter_key = self.after_call call) ∧
    ((∀ call ∈ calls, call.counter_key ≠ counter_key) →
      (self.drive HitCall.max_hits calls).history counter_key = self.history counter_key) := by
  induction calls generalizing self with
  | nil => exact ⟨fun _ hcall => absurd hcall List.not_mem_nil, fun _ => rfl⟩
  | cons first rest ih =>
    obtain ⟨hfresh, hrest⟩ := List.nodup_cons.mp hdistinct
    obtain ⟨hown, hother⟩ := ih hrest (hfits.tail (self.after_call first))
    rw [drive_cons, hit_snd_of_fits hfits]
    constructor
    · intro call hcall hkey
      rcases List.mem_cons.mp hcall with rfl | hlater
      · rw [hother fun later hlater heq => hfresh (List.mem_map.mpr ⟨later, hlater, heq.trans hkey.symm⟩), ← hkey,
          history_store_history_self]
      · rw [hown call hlater hkey, after_call_store_history_of_ne]
        exact fun heq => hfresh (heq ▸ List.mem_map_of_mem hlater)
    · intro hnone
      rw [hother fun later hlater => hnone later (List.mem_cons_of_mem _ hlater)]
      exact history_store_history_of_ne _ _ (hnone first List.mem_cons_self).symm

/-- Where every scope is identified, an evaluation makes its calls in rule order
    and selects among the rules over their limit. -/
theorem evaluate_rules_eq {remaining : List (Rule × Nat)}
    (hidentified : ∀ numbered ∈ remaining, scope_identifiers.get? numbered.1.scope ≠ none)
    (matched_actions : List CandidateAction) (self : InMemoryStorage V) :
    evaluate_rules (fun storage => storage.record_hit now) scope_identifiers handler_name remaining matched_actions
        self =
      (.ok (select_rule_action (matched_actions ++
        (self.issue HitCall.max_hits (remaining.map (hit_call scope_identifiers handler_name now))).filterMap
          HitOutcome.candidate)),
       self.drive HitCall.max_hits (remaining.map (hit_call scope_identifiers handler_name now))) := by
  induction remaining generalizing matched_actions self with
  | nil => simp [evaluate_rules, issue, outputs, drive, settle]
  | cons numbered rest ih =>
    obtain ⟨rule, index⟩ := numbered
    have hrest := ih (fun later hlater => hidentified later (List.mem_cons_of_mem _ hlater))
    obtain ⟨request_key, hkey⟩ := Option.ne_none_iff_exists'.mp (hidentified (rule, index) List.mem_cons_self)
    have hcall : hit_call scope_identifiers handler_name now (rule, index) =
        ⟨request_key, handler_name, index, rule, now⟩ := by simp [hit_call, hkey]
    have hrecord := self.record_hit_call ⟨request_key, handler_name, index, rule, now⟩
    simp only [HitCall.max_hits] at hrecord
    rw [List.map_cons, hcall, issue_cons, drive_cons, hit_eq_after_call]
    simp only [evaluate_rules, hkey, policy.record_hit, hrecord, hrest, count_rule_eq_append, List.append_assoc,
      List.filterMap_cons, HitOutcome.candidate, HitCall.max_hits]
    cases verdict rule _ <;> rfl

end InMemoryStorage

end response_bandwidth_limiter.memory

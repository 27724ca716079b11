import ResponseBandwidthLimiter.Collections.OrderedDict
import ResponseBandwidthLimiter.Models
import Mathlib.Algebra.Order.Floor.Ring
import Mathlib.Data.Rat.Floor
import Mathlib.Data.List.MinMax
import Mathlib.Data.Prod.Lex

open collections
open response_bandwidth_limiter.base response_bandwidth_limiter.models

namespace response_bandwidth_limiter.policy

structure MatchedPolicy where
  rule : Rule
  retry_after : ℤ

structure CandidateAction where
  rule : Rule
  retry_after : ℤ
  order : Nat

/-- What candidates are compared by. -/
def SortTuple : Type := ℤ ×ₗ (ℚ ×ₗ Nat)

-- the orders are named, as the conditionally complete ones do not compute
instance : LinearOrder SortTuple :=
  @Prod.Lex.instLinearOrder ℤ (ℚ ×ₗ Nat) Int.instLinearOrder
    (@Prod.Lex.instLinearOrder ℚ Nat Rat.linearOrder Nat.instLinearOrder)

def CandidateAction.sort_tuple (self : CandidateAction) : SortTuple :=
  toLex (self.rule.action.priority, toLex (self.rule.action.sort_key, self.order))

theorem CandidateAction.sort_tuple_le_iff {first second : CandidateAction} :
    first.sort_tuple ≤ second.sort_tuple ↔
      first.rule.action.priority < second.rule.action.priority ∨
        first.rule.action.priority = second.rule.action.priority ∧
          (first.rule.action.sort_key < second.rule.action.sort_key ∨
            first.rule.action.sort_key = second.rule.action.sort_key ∧ first.order ≤ second.order) := by
  rw [sort_tuple, sort_tuple]
  refine Prod.Lex.toLex_le_toLex.trans ?_
  rw [Prod.Lex.toLex_le_toLex]

/-- The first candidate with the least sort tuple. -/
def select_rule_action (matched_actions : List CandidateAction) : Option MatchedPolicy :=
  (matched_actions.argmin CandidateAction.sort_tuple).map (fun selected => ⟨selected.rule, selected.retry_after⟩)

theorem select_rule_action_eq_none_iff {matched_actions : List CandidateAction} :
    select_rule_action matched_actions = none ↔ matched_actions = [] := by
  rw [select_rule_action, Option.map_eq_none_iff, List.argmin_eq_none]

/-- What is selected is a candidate that no other one precedes. -/
theorem exists_of_select_rule_action {matched_actions : List CandidateAction} {matched : MatchedPolicy}
    (hselected : select_rule_action matched_actions = some matched) :
    ∃ candidate ∈ matched_actions, matched = ⟨candidate.rule, candidate.retry_after⟩ ∧
      ∀ other ∈ matched_actions, candidate.sort_tuple ≤ other.sort_tuple := by
  obtain ⟨candidate, hargmin, rfl⟩ := Option.map_eq_some_iff.mp hselected
  exact ⟨candidate, List.argmin_mem hargmin, rfl, fun other hother => List.le_of_mem_argmin hother hargmin⟩

def retry_after_seconds (oldest_timestamp : Option ℚ) (now : ℚ) (window_seconds : ℤ) : ℤ :=
  match oldest_timestamp with
  | none => 1
  | some oldest => max 1 ⌈(window_seconds : ℚ) - (now - oldest)⌉

theorem retry_after_seconds_bounds {oldest now : ℚ} {window_seconds : ℤ} (hpast : oldest ≤ now)
    (hwindow : 1 ≤ window_seconds) :
    1 ≤ retry_after_seconds (some oldest) now window_seconds ∧
      retry_after_seconds (some oldest) now window_seconds ≤ window_seconds := by
  refine ⟨le_max_left _ _, max_le hwindow (Int.ceil_le.mpr ?_)⟩
  linarith

/-- While the hit waited for is in the window, the retry time is the least whole
    number of seconds after which it is not. -/
theorem retry_after_seconds_le_iff {oldest now : ℚ} {window_seconds : ℤ} (hinside : now - window_seconds < oldest)
    (wait : ℤ) :
    retry_after_seconds (some oldest) now window_seconds ≤ wait ↔ oldest ≤ now + wait - window_seconds := by
  have hleft : 0 < ⌈(window_seconds : ℚ) - (now - oldest)⌉ := by
    rw [Int.ceil_pos]
    linarith
  rw [retry_after_seconds, max_eq_right (by omega), Int.ceil_le]
  constructor <;> intro h <;> linarith

/-- The time `evaluate` waits for: the retry hit where the storage names one,
    the oldest hit otherwise. -/
def retry_hit (hit_result : SlidingWindowResult) : Option ℚ :=
  hit_result.retry_after_timestamp.or hit_result.oldest_timestamp

/-- The body of the loop in `evaluate` after its `record_hit` call returned: a
    rule over its limit becomes a candidate. -/
def count_rule (rule : Rule) (index : Nat) (matched_actions : List CandidateAction)
    (hit_result : SlidingWindowResult) : List CandidateAction :=
  if (hit_result.hit_count : ℤ) > rule.count then
    let retry_after :=
      retry_after_seconds (retry_hit hit_result) hit_result.current_timestamp rule.window_seconds
    matched_actions ++ [⟨rule, retry_after, index⟩]
  else matched_actions

def missing_identifier (scope : String) : PyError :=
  .value_error ("No identifier was resolved for scope '" ++ scope ++ "'.")

/-- A storage's `record_hit` as `evaluate` calls it: request key, handler name,
    rule index, window, and the hit cap. -/
abbrev RecordHit (S : Type) :=
  S → String → String → Nat → ℤ → Option ℤ → Except PyError SlidingWindowResult × S

section Evaluate

variable {S : Type} (storage_record_hit : RecordHit S)

/-- `PolicyEvaluator._record_hit`: the cap is one more than the rule allows. -/
def record_hit (storage : S) (request_key handler_name : String) (rule_index : Nat) (rule : Rule) :
    Except PyError SlidingWindowResult × S :=
  storage_record_hit storage request_key handler_name rule_index rule.window_seconds (some (rule.count + 1))

/-- The loop of `evaluate` over the rules that remain. -/
def evaluate_rules (scope_identifiers : OrderedDict String String) (handler_name : String) :
    List (Rule × Nat) → List CandidateAction → S → Except PyError (Option MatchedPolicy) × S
  | [], matched_actions, storage => (.ok (select_rule_action matched_actions), storage)
  | (rule, index) :: rest, matched_actions, storage =>
    match scope_identifiers.get? rule.scope with
    | none => (.error (missing_identifier rule.scope), storage)
    | some request_key =>
      match record_hit storage_record_hit storage request_key handler_name index rule with
      | (.error e, storage) => (.error e, storage)
      | (.ok hit_result, storage) =>
        evaluate_rules scope_identifiers handler_name rest
          (count_rule rule index matched_actions hit_result) storage

def evaluate (storage : S) (scope_identifiers : OrderedDict String String) (handler_name : String)
    (rules : List Rule) : Except PyError (Option MatchedPolicy) × S :=
  evaluate_rules storage_record_hit scope_identifiers handler_name rules.zipIdx [] storage

/-- An evaluation that returns has found an identifier for every rule. -/
theorem evaluate_rules_identified {scope_identifiers : OrderedDict String String} {handler_name : String}
    {remaining : List (Rule × Nat)} {matched_actions : List CandidateAction} {storage : S}
    {selected : Option MatchedPolicy}
    (hok : (evaluate_rules storage_record_hit scope_identifiers handler_name remaining matched_actions storage).1 =
      .ok selected) : ∀ numbered ∈ remaining, scope_identifiers.get? numbered.1.scope ≠ none := by
  induction remaining generalizing matched_actions storage with
  | nil => exact fun _ hmem => absurd hmem List.not_mem_nil
  | cons numbered rest ih =>
    obtain ⟨rule, index⟩ := numbered
    cases hkey : scope_identifiers.get? rule.scope with
    | none =>
      simp only [evaluate_rules, hkey] at hok
      cases hok
    | some request_key =>
      simp only [evaluate_rules, hkey] at hok
      revert hok
      generalize record_hit storage_record_hit storage request_key handler_name index rule = outcome
      obtain ⟨result, next⟩ := outcome
      cases result with
      | error e => exact nofun
      | ok hit_result =>
        intro hok
        refine List.forall_mem_cons.mpr ⟨?_, ih hok⟩
        rw [hkey]
        exact Option.some_ne_none _

/-- What a single rule makes of its hit. -/
def verdict (rule : Rule) (hit_result : SlidingWindowResult) : Option MatchedPolicy :=
  if (hit_result.hit_count : ℤ) > rule.count then
    some ⟨rule, retry_after_seconds (retry_hit hit_result) hit_result.current_timestamp rule.window_seconds⟩
  else none

/-- A rule matches exactly the hits over its limit. -/
theorem verdict_eq_some_iff {rule : Rule} {hit_result : SlidingWindowResult} {matched : MatchedPolicy} :
    verdict rule hit_result = some matched ↔ (hit_result.hit_count : ℤ) > rule.count ∧
      ⟨rule, retry_after_seconds (retry_hit hit_result) hit_result.current_timestamp rule.window_seconds⟩ =
        matched := by
  unfold verdict
  split
  · next hover => rw [Option.some.injEq, and_iff_right hover]
  · next hwithin => simp [hwithin]

theorem verdict_rule {rule : Rule} {hit_result : SlidingWindowResult} {matched : MatchedPolicy}
    (hverdict : verdict rule hit_result = some matched) : matched.rule = rule := by
  obtain ⟨-, rfl⟩ := verdict_eq_some_iff.mp hverdict
  rfl

theorem count_rule_eq_append (rule : Rule) (index : Nat) (matched_actions : List CandidateAction)
    (hit_result : SlidingWindowResult) :
    count_rule rule index matched_actions hit_result = matched_actions ++
      ((verdict rule hit_result).map (fun matched => ⟨matched.rule, matched.retry_after, index⟩)).toList := by
  unfold count_rule verdict
  split <;> simp

/-- At its last rule the loop counts one hit and matches, if no rule did before,
    when it is over the limit. -/
theorem evaluate_rules_single {rule : Rule} {scope_identifiers : OrderedDict String String} {request_key : String}
    (hidentifier : scope_identifiers.get? rule.scope = some request_key) (storage : S) (handler_name : String)
    (index : Nat) :
    evaluate_rules storage_record_hit scope_identifiers handler_name [(rule, index)] [] storage =
      ((record_hit storage_record_hit storage request_key handler_name index rule).1.map (verdict rule),
        (record_hit storage_record_hit storage request_key handler_name index rule).2) := by
  simp only [evaluate_rules, hidentifier]
  generalize record_hit storage_record_hit storage request_key handler_name index rule = outcome
  obtain ⟨result, next⟩ := outcome
  cases result with
  | error e => rfl
  | ok hit_result =>
    simp only [count_rule, verdict, Except.map, List.nil_append]
    split_ifs <;> simp [select_rule_action]

/-- With one rule, `evaluate` counts one hit and matches when it is over the
    limit. -/
theorem evaluate_single {rule : Rule} {scope_identifiers : OrderedDict String String} {request_key : String}
    (hidentifier : scope_identifiers.get? rule.scope = some request_key) (storage : S) (handler_name : String) :
    evaluate storage_record_hit storage scope_identifiers handler_name [rule] =
      ((record_hit storage_record_hit storage request_key handler_name 0 rule).1.map (verdict rule),
        (record_hit storage_record_hit storage request_key handler_name 0 rule).2) :=
  evaluate_rules_single storage_record_hit hidentifier storage handler_name 0

end Evaluate

/-- `evaluate` suspended in a `record_hit` call: the rules still to be counted,
    with their positions, and the rules over their limit so far. -/
structure Evaluation where
  scope_identifiers : OrderedDict String String
  handler_name : String
  remaining : List (Rule × Nat)
  matched_actions : List CandidateAction

/-- What `evaluate` does next. -/
inductive EvaluationAction where
  | finish (selected : Option MatchedPolicy)
  | fail (error : PyError)
  | record_hit (request_key : String) (rule_index : Nat) (rule : Rule)

namespace Evaluation

def start (scope_identifiers : OrderedDict String String) (handler_name : String) (rules : List Rule) :
    Evaluation where
  scope_identifiers := scope_identifiers
  handler_name := handler_name
  remaining := rules.zipIdx
  matched_actions := []

def next (self : Evaluation) : EvaluationAction :=
  match self.remaining with
  | [] => .finish (select_rule_action self.matched_actions)
  | (rule, index) :: _ =>
    match self.scope_identifiers.get? rule.scope with
    | none => .fail (missing_identifier rule.scope)
    | some request_key => .record_hit request_key index rule

def resume (self : Evaluation) (hit_result : SlidingWindowResult) : Evaluation :=
  match self.remaining with
  | [] => self
  | (rule, index) :: rest =>
    { self with
      remaining := rest
      matched_actions := count_rule rule index self.matched_actions hit_result }

end Evaluation

end response_bandwidth_limiter.policy

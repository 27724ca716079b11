import ResponseBandwidthLimiter.Backends.Memory.Evaluations
import Mathlib.Data.List.Perm.Basic

open collections sliding_window
open response_bandwidth_limiter.base response_bandwidth_limiter.models response_bandwidth_limiter.policy

namespace collections

theorem forall₂_eq_fst_iff {A B : Type*} {list : List A} {entries : List (A × B)} :
    List.Forall₂ (fun element entry => element = entry.1) list entries ↔ list = entries.map Prod.fst := by
  rw [← List.forall₂_map_right_iff, List.forall₂_eq_eq_eq]

/-- The positions of a list's elements in the list and in a permutation of it. -/
theorem exists_positions_of_perm {A : Type*} {first second : List A} (hperm : first.Perm second) :
    ∃ positions : List (A × Nat × Nat),
      (positions.map (fun place => (place.1, place.2.1))).Perm first.zipIdx ∧
        positions.map (fun place => (place.1, place.2.2)) = second.zipIdx := by
  obtain ⟨entries, hsecond, hentries⟩ :=
    List.perm_comp_forall₂ hperm.symm (forall₂_eq_fst_iff.mpr (List.zipIdx_map_fst 0 first).symm)
  rw [forall₂_eq_fst_iff] at hsecond
  refine ⟨entries.zipIdx.map (fun place => (place.1.1, place.1.2, place.2)), ?_, ?_⟩
  · rw [List.map_map]
    exact (List.zipIdx_map_fst 0 entries).symm ▸ hentries
  · rw [List.map_map, hsecond, List.zipIdx_map]
    rfl

end collections

namespace response_bandwidth_limiter.memory

/-- What an evaluation is asked, and when. -/
structure PolicyRequest where
  scope_identifiers : OrderedDict String String
  handler_name : String
  now : ℚ

/-- What comes before the position in the order of the rules. -/
def precedence (rule : Rule) : ℤ × ℚ := (rule.action.priority, rule.action.sort_key)

/-- Two evaluations that both match nothing, or rules with actions that sort the
    same. -/
def SameRank (first second : Except PyError (Option MatchedPolicy)) : Prop :=
  ∃ one other, first = .ok one ∧ second = .ok other ∧
    one.map (fun matched => precedence matched.rule) = other.map (fun matched => precedence matched.rule)

def PolicyRequest.calls (self : PolicyRequest) (rules : List Rule) : List HitCall :=
  rules.zipIdx.map (hit_call self.scope_identifiers self.handler_name self.now)

/-- Every rule's scope is identified. -/
def PolicyRequest.Identifies (self : PolicyRequest) (rules : List Rule) : Prop :=
  ∀ rule ∈ rules, self.scope_identifiers.get? rule.scope ≠ none

namespace InMemoryStorage

variable {V : Type} {rules permuted : List Rule} {request : PolicyRequest}

/-- One evaluation of a policy evaluator with these rules. -/
def respond (rules : List Rule) (self : InMemoryStorage V) (request : PolicyRequest) :
    Except PyError (Option MatchedPolicy) × InMemoryStorage V :=
  evaluate (fun storage => storage.record_hit request.now) self request.scope_identifiers request.handler_name rules

theorem respond_eq (hidentifies : request.Identifies rules) (self : InMemoryStorage V) :
    self.respond rules request =
      (.ok (select_rule_action ((self.issue HitCall.max_hits (request.calls rules)).filterMap HitOutcome.candidate)),
       self.drive HitCall.max_hits (request.calls rules)) :=
  evaluate_rules_eq (fun numbered hnumbered =>
    hidentifies numbered.1 (List.fst_mem_of_mem_zipIdx hnumbered)) [] self

theorem nodup_calls (rules : List Rule) (request : PolicyRequest) :
    ((request.calls rules).map HitCall.counter_key).Nodup := by
  refine List.Nodup.of_map (fun counter_key => counter_key.2.2) ?_
  rw [PolicyRequest.calls, List.map_map, List.map_map]
  exact nodup_positions rules

/-- What a rule at a position adds to the rules over their limit. -/
def candidate_of (self : InMemoryStorage V) (request : PolicyRequest) (numbered : Rule × Nat) :
    Option CandidateAction :=
  let call := hit_call request.scope_identifiers request.handler_name request.now numbered
  (verdict numbered.1 (hit_result request.now call.max_hits (self.after_call call))).map
    (fun matched => ⟨matched.rule, matched.retry_after, numbered.2⟩)

theorem candidates_eq {self : InMemoryStorage V} (hfits : self.Fits (request.calls rules)) :
    (self.issue HitCall.max_hits (request.calls rules)).filterMap HitOutcome.candidate =
      rules.zipIdx.filterMap (self.candidate_of request) := by
  rw [issue_eq_map (nodup_calls rules request) hfits, PolicyRequest.calls, List.map_map, List.filterMap_map]
  rfl

/-- An evaluation changes, of the counters of a rule's position, the one of the
    client and the handler it is for. -/
theorem history_drive_calls {self : InMemoryStorage V} (hfits : self.Fits (request.calls rules)) {rule : Rule}
    {index : Nat} (hrule : rules[index]? = some rule) (request_key handler_name : String) :
    (self.drive HitCall.max_hits (request.calls rules)).history (request_key, handler_name, index) =
      if (request.scope_identifiers.get? rule.scope).getD "" = request_key ∧ request.handler_name = handler_name
      then self.after_call (hit_call request.scope_identifiers request.handler_name request.now (rule, index))
      else self.history (request_key, handler_name, index) := by
  obtain ⟨hown, hother⟩ := history_drive (nodup_calls rules request) hfits (request_key, handler_name, index)
  have hmem : hit_call request.scope_identifiers request.handler_name request.now (rule, index) ∈
      request.calls rules := List.mem_map_of_mem (List.mk_mem_zipIdx_iff_getElem?.mpr hrule)
  split
  · next hkey =>
    apply hown _ hmem
    rw [← hkey.1, ← hkey.2]
    rfl
  · next hkey =>
    refine hother fun call hcall heq => hkey ?_
    obtain ⟨⟨found, position⟩, hfound, rfl⟩ := List.mem_map.mp hcall
    simp only [hit_call, HitCall.counter_key, Prod.mk.injEq] at heq
    obtain ⟨hrequest, hhandler, rfl⟩ := heq
    rw [List.mk_mem_zipIdx_iff_getElem?, hrule, Option.some.injEq] at hfound
    subst hfound
    exact ⟨hrequest, hhandler⟩

/-- Where the rules of one list stand in it and in a permuted one. -/
structure Places (rules permuted : List Rule) (places : Rule → Nat → Nat → Prop) : Prop where
  first : ∀ rule index, rules[index]? = some rule ↔ ∃ other, places rule index other
  second : ∀ rule other, permuted[other]? = some rule ↔ ∃ index, places rule index other

theorem exists_places (hperm : rules.Perm permuted) : ∃ places, Places rules permuted places := by
  obtain ⟨positions, hfirst, hsecond⟩ := exists_positions_of_perm hperm
  refine ⟨fun rule index other => (rule, index, other) ∈ positions, fun rule index => ?_, fun rule other => ?_⟩
  · rw [← List.mk_mem_zipIdx_iff_getElem?, ← hfirst.mem_iff]
    simp
  · rw [← List.mk_mem_zipIdx_iff_getElem?, ← hsecond]
    simp

/-- Two storages hold the same of every rule, each at the place where it counts
    the rule. -/
def Relabelled (places : Rule → Nat → Nat → Prop) (first second : InMemoryStorage V) : Prop :=
  ∀ rule index other, places rule index other → ∀ request_key handler_name,
    first.history (request_key, handler_name, index) = second.history (request_key, handler_name, other)

variable {places : Rule → Nat → Nat → Prop} {first second : InMemoryStorage V}

theorem Places.symm (h : Places rules permuted places) :
    Places permuted rules (fun rule index other => places rule other index) := ⟨h.second, h.first⟩

theorem Relabelled.symm (h : Relabelled places first second) :
    Relabelled (fun rule index other => places rule other index) second first :=
  fun rule index other hplace request_key handler_name => (h rule other index hplace request_key handler_name).symm

theorem Relabelled.after_call (h : Relabelled places first second) {rule : Rule} {index other : Nat}
    (hplace : places rule index other) (request : PolicyRequest) :
    first.after_call (hit_call request.scope_identifiers request.handler_name request.now (rule, index)) =
      second.after_call (hit_call request.scope_identifiers request.handler_name request.now (rule, other)) := by
  simp only [InMemoryStorage.after_call, hit_call, HitCall.counter_key, HitCall.max_hits]
  rw [h rule index other hplace]

/-- An evaluation keeps the histories at the places of a rule the same. -/
theorem Relabelled.drive (h : Relabelled places first second) (hplaces : Places rules permuted places)
    (hfirst : first.Fits (request.calls rules)) (hsecond : second.Fits (request.calls permuted)) :
    Relabelled places (first.drive HitCall.max_hits (request.calls rules))
      (second.drive HitCall.max_hits (request.calls permuted)) := by
  intro rule index other hplace request_key handler_name
  rw [history_drive_calls hfirst ((hplaces.first rule index).mpr ⟨other, hplace⟩),
    history_drive_calls hsecond ((hplaces.second rule other).mpr ⟨index, hplace⟩), h.after_call hplace,
    h rule index other hplace]

theorem mem_candidates_iff {self : InMemoryStorage V} {candidate : CandidateAction} :
    candidate ∈ rules.zipIdx.filterMap (self.candidate_of request) ↔
      rules[candidate.order]? = some candidate.rule ∧
        self.candidate_of request (candidate.rule, candidate.order) = some candidate := by
  rw [List.mem_filterMap]
  constructor
  · rintro ⟨⟨rule, index⟩, hmem, hfound⟩
    obtain ⟨matched, hverdict, rfl⟩ := Option.map_eq_some_iff.mp hfound
    obtain rfl : matched.rule = rule := verdict_rule hverdict
    exact ⟨List.mk_mem_zipIdx_iff_getElem?.mp hmem, hfound⟩
  · rintro ⟨hrule, hfound⟩
    exact ⟨_, List.mk_mem_zipIdx_iff_getElem?.mpr hrule, hfound⟩

/-- A rule over its limit in one storage is over it in the other, with the same
    retry time. -/
theorem Relabelled.candidate (h : Relabelled places first second) (hplaces : Places rules permuted places)
    {candidate : CandidateAction} (hcandidate : candidate ∈ rules.zipIdx.filterMap (first.candidate_of request)) :
    ∃ other, places candidate.rule candidate.order other ∧
      ⟨candidate.rule, candidate.retry_after, other⟩ ∈ permuted.zipIdx.filterMap (second.candidate_of request) := by
  obtain ⟨rule, retry_after, order⟩ := candidate
  obtain ⟨hrule, hfound⟩ := mem_candidates_iff.mp hcandidate
  obtain ⟨other, hplace⟩ := (hplaces.first rule order).mp hrule
  refine ⟨other, hplace, mem_candidates_iff.mpr ⟨(hplaces.second rule other).mpr ⟨order, hplace⟩, ?_⟩⟩
  obtain ⟨matched, hverdict, heq⟩ := Option.map_eq_some_iff.mp hfound
  obtain ⟨rfl, rfl, -⟩ := CandidateAction.mk.inj heq
  rw [h.after_call hplace] at hverdict
  exact Option.map_eq_some_iff.mpr ⟨matched, hverdict, rfl⟩

theorem precedence_eq_of_le {first second third fourth : CandidateAction} (hsame : fourth.rule = first.rule)
    (hother : second.rule = third.rule) (hfirst : first.sort_tuple ≤ second.sort_tuple)
    (hsecond : third.sort_tuple ≤ fourth.sort_tuple) : precedence first.rule = precedence third.rule := by
  rw [CandidateAction.sort_tuple_le_iff, hother] at hfirst
  rw [CandidateAction.sort_tuple_le_iff, hsame] at hsecond
  rcases hfirst with hprio | ⟨hprio, hkey | ⟨hkey, -⟩⟩
  · rcases hsecond with hback | ⟨hback, -⟩ <;> omega
  · rcases hsecond with hback | ⟨-, hback | ⟨hback, -⟩⟩
    · omega
    · exact absurd hback (not_lt.mpr hkey.le)
    · exact absurd hback hkey.ne'
  · exact Prod.ext hprio hkey

theorem index_eq_of_precedence (hdistinct : rules.Pairwise (fun one other => precedence one ≠ precedence other))
    {index other : Nat} {first second : Rule} (hfirst : rules[index]? = some first)
    (hsecond : rules[other]? = some second) (hsame : precedence first = precedence second) : index = other := by
  obtain ⟨hindex, rfl⟩ := List.getElem?_eq_some_iff.mp hfirst
  obtain ⟨hother, rfl⟩ := List.getElem?_eq_some_iff.mp hsecond
  rw [List.pairwise_iff_getElem] at hdistinct
  rcases Nat.lt_trichotomy index other with hlt | heq | hgt
  · exact absurd hsame (hdistinct index other hindex hother hlt)
  · exact heq
  · exact absurd hsame.symm (hdistinct other index hother hindex hgt)

/-- One evaluation in storages that differ by a permutation of the rules. -/
theorem Relabelled.respond (h : Relabelled places first second) (hplaces : Places rules permuted places)
    (hrules : request.Identifies rules) (hpermuted : request.Identifies permuted)
    (hfirst : first.Fits (request.calls rules)) (hsecond : second.Fits (request.calls permuted)) :
    SameRank (first.respond rules request).1 (second.respond permuted request).1 ∧
      (rules.Pairwise (fun one other => precedence one ≠ precedence other) →
        (first.respond rules request).1 = (second.respond permuted request).1) := by
  rw [respond_eq hrules, respond_eq hpermuted, candidates_eq hfirst, candidates_eq hsecond]
  simp only
  cases hone : select_rule_action (rules.zipIdx.filterMap (first.candidate_of request)) with
  | none =>
    have hnone : select_rule_action (permuted.zipIdx.filterMap (second.candidate_of request)) = none := by
      rw [select_rule_action_eq_none_iff] at hone ⊢
      apply List.eq_nil_iff_forall_not_mem.mpr
      intro candidate hcandidate
      obtain ⟨other, -, hmem⟩ := h.symm.candidate hplaces.symm hcandidate
      rw [hone] at hmem
      cases hmem
    rw [hnone]
    exact ⟨⟨none, none, rfl, rfl, rfl⟩, fun _ => rfl⟩
  | some matched =>
    obtain ⟨candidate, hcandidate, rfl, hleast⟩ := exists_of_select_rule_action hone
    obtain ⟨_, -, hthere⟩ := h.candidate hplaces hcandidate
    cases htwo : select_rule_action (permuted.zipIdx.filterMap (second.candidate_of request)) with
    | none =>
      rw [select_rule_action_eq_none_iff.mp htwo] at hthere
      cases hthere
    | some selected =>
      obtain ⟨chosen, hchosen, rfl, hminimal⟩ := exists_of_select_rule_action htwo
      obtain ⟨index, -, hhere⟩ := h.symm.candidate hplaces.symm hchosen
      have hprecedence : precedence candidate.rule = precedence chosen.rule :=
        precedence_eq_of_le (by rfl) (by rfl) (hleast _ hhere) (hminimal _ hthere)
      refine ⟨⟨_, _, rfl, rfl, congrArg some hprecedence⟩, fun hdistinct => ?_⟩
      obtain ⟨hrule, hfound⟩ := mem_candidates_iff.mp hcandidate
      obtain ⟨hother, hagain⟩ := mem_candidates_iff.mp hhere
      have hindex := index_eq_of_precedence hdistinct hrule hother hprecedence
      rw [hindex, hother, Option.some.injEq] at hrule
      rw [hindex, ← hrule] at hfound
      rw [hfound, Option.some.injEq] at hagain
      rw [hagain]

/-- One call's rule comes before another's in the order of priority, sort key and
    position. -/
def Precedes (first second : HitCall) : Prop :=
  first.rule.action.priority < second.rule.action.priority ∨
    first.rule.action.priority = second.rule.action.priority ∧
      (first.rule.action.sort_key < second.rule.action.sort_key ∨
        first.rule.action.sort_key = second.rule.action.sort_key ∧ first.rule_index < second.rule_index)

theorem candidate_spec {outcome : HitOutcome} {candidate : CandidateAction}
    (hcandidate : outcome.candidate = some candidate) :
    outcome.admitted = false ∧ candidate.rule = outcome.1.rule ∧ candidate.order = outcome.1.rule_index := by
  obtain ⟨call, result⟩ := outcome
  cases result with
  | error e => cases hcandidate
  | ok result =>
    obtain ⟨matched, hverdict, rfl⟩ := Option.map_eq_some_iff.mp hcandidate
    refine ⟨?_, verdict_rule hverdict, rfl⟩
    have hover := (verdict_eq_some_iff.mp hverdict).1
    simpa [HitOutcome.admitted] using hover

theorem exists_candidate {calls : List HitCall} {self : InMemoryStorage V} {outcome : HitOutcome}
    (hmem : outcome ∈ self.issue HitCall.max_hits calls) (hover : outcome.admitted = false) :
    ∃ candidate, outcome.candidate = some candidate := by
  obtain ⟨before, call, after, -, rfl⟩ := exists_of_mem_issue hmem
  rw [hit_eq_after_call] at hover ⊢
  simp only [HitOutcome.admitted, decide_eq_false_iff_not, not_le] at hover
  simp only [HitOutcome.candidate, verdict, gt_iff_lt, if_pos hover]
  exact ⟨_, rfl⟩

/-- An evaluation matches nothing when every rule is within its limit, and
    otherwise the first of those over it. -/
theorem respond_selects (hidentifies : request.Identifies rules) (self : InMemoryStorage V) :
    ∃ selected, (self.respond rules request).1 = .ok selected ∧
      (selected = none ↔ ∀ outcome ∈ self.issue HitCall.max_hits (request.calls rules), outcome.admitted = true) ∧
      ∀ matched ∈ selected, ∃ outcome ∈ self.issue HitCall.max_hits (request.calls rules),
        outcome.admitted = false ∧ matched.rule = outcome.1.rule ∧
        ∀ other ∈ self.issue HitCall.max_hits (request.calls rules), other.admitted = false →
          ¬ Precedes other.1 outcome.1 := by
  refine ⟨_, congrArg Prod.fst (respond_eq hidentifies self), ?_, ?_⟩
  · rw [select_rule_action_eq_none_iff, List.filterMap_eq_nil_iff]
    refine forall₂_congr fun outcome hmem => ⟨fun hnone => ?_, fun hadmitted => ?_⟩
    · by_contra hover
      obtain ⟨candidate, hcandidate⟩ := exists_candidate hmem (Bool.not_eq_true _ ▸ hover)
      rw [hnone] at hcandidate
      cases hcandidate
    · by_contra hsome
      obtain ⟨candidate, hcandidate⟩ := Option.ne_none_iff_exists'.mp hsome
      rw [(candidate_spec hcandidate).1] at hadmitted
      cases hadmitted
  · intro matched hselected
    obtain ⟨candidate, hcandidate, rfl, hleast⟩ := exists_of_select_rule_action hselected
    obtain ⟨outcome, hmem, hfound⟩ := List.mem_filterMap.mp hcandidate
    obtain ⟨hover, hrule, horder⟩ := candidate_spec hfound
    refine ⟨outcome, hmem, hover, hrule, fun other hother hotherover hprecedes => ?_⟩
    obtain ⟨rival, hrival⟩ := exists_candidate hother hotherover
    obtain ⟨-, hrivalrule, hrivalorder⟩ := candidate_spec hrival
    have hle := hleast rival (List.mem_filterMap.mpr ⟨other, hother, hrival⟩)
    rw [CandidateAction.sort_tuple_le_iff, hrule, horder, hrivalrule, hrivalorder] at hle
    rcases hle with hprio | ⟨hprio, hkey | ⟨hkey, hposition⟩⟩ <;>
      rcases hprecedes with hrank | ⟨hrank, hsort | ⟨hsort, hindex⟩⟩ <;> first | omega | linarith

/-- The calls of a run of requests. -/
def run_calls (rules : List Rule) (requests : List PolicyRequest) : List HitCall :=
  requests.flatMap (fun request => request.calls rules)

theorem Fits.respond {self : InMemoryStorage V} {rest : List PolicyRequest}
    (hfits : self.Fits (run_calls rules (request :: rest))) (hidentifies : request.Identifies rules) :
    self.Fits (request.calls rules) ∧ (self.respond rules request).2.Fits (run_calls rules rest) := by
  rw [run_calls, List.flatMap_cons] at hfits
  rw [respond_eq hidentifies]
  exact ⟨hfits.of_append, hfits.drive validate_max_hits_call⟩

/-- Along a run, storages that start empty answer permuted rules alike. -/
theorem forall₂_respond (max_keys max_counters : ℕ+) (hperm : rules.Perm permuted) {requests : List PolicyRequest}
    (hidentifies : ∀ request ∈ requests, request.Identifies rules)
    (hroom : ((run_calls rules requests).map HitCall.counter_key).dedup.length ≤ max_counters)
    (hroom' : ((run_calls permuted requests).map HitCall.counter_key).dedup.length ≤ max_counters) :
    List.Forall₂ (fun first second => SameRank first second ∧
        (rules.Pairwise (fun one other => precedence one ≠ precedence other) → first = second))
      (outputs (respond rules) (fresh max_keys max_counters : InMemoryStorage V) requests)
      (outputs (respond permuted) (fresh max_keys max_counters : InMemoryStorage V) requests) := by
  obtain ⟨places, hplaces⟩ := exists_places hperm
  refine (simulation _ (fun before first second => Relabelled places first second ∧
    ∀ rest, requests = before ++ rest → first.Fits (run_calls rules rest) ∧ second.Fits (run_calls permuted rest))
    ⟨fun _ _ _ _ _ _ => rfl, ?_⟩ ?_).1
  · rintro rest rfl
    exact ⟨fits_fresh_iff.mpr hroom, fits_fresh_iff.mpr hroom'⟩
  · rintro before request rest rfl first second ⟨hrelabelled, hfits⟩
    obtain ⟨hfirst, hsecond⟩ := hfits (request :: rest) rfl
    have hrules := hidentifies request (by simp)
    have hpermuted : request.Identifies permuted := fun rule hrule => hrules rule (hperm.mem_iff.mpr hrule)
    obtain ⟨hfirst, hfirstrest⟩ := hfirst.respond hrules
    obtain ⟨hsecond, hsecondrest⟩ := hsecond.respond hpermuted
    refine ⟨hrelabelled.respond hplaces hrules hpermuted hfirst hsecond, ?_, ?_⟩
    · rw [respond_eq hrules, respond_eq hpermuted]
      exact hrelabelled.drive hplaces hfirst hsecond
    · intro later hlater
      rw [List.append_assoc] at hlater
      obtain rfl := List.cons_inj_right request |>.mp (List.append_cancel_left hlater)
      exact ⟨hfirstrest, hsecondrest⟩

/-- Rule order only breaks exact ties. Evaluators with permuted rules that start
    empty match, at every request of a run, nothing or rules that sort the same,
    and when no two rules sort the same the same rule with the same retry time.
    What is matched is the first of the rules over their limit. -/
theorem rule_order_breaks_ties (max_keys max_counters : ℕ+) (hperm : rules.Perm permuted)
    {requests : List PolicyRequest} (hidentifies : ∀ request ∈ requests, request.Identifies rules)
    (hroom : ((run_calls rules requests).map HitCall.counter_key).dedup.length ≤ max_counters)
    (hroom' : ((run_calls permuted requests).map HitCall.counter_key).dedup.length ≤ max_counters) :
    List.Forall₂ SameRank (outputs (respond rules) (fresh max_keys max_counters : InMemoryStorage V) requests)
      (outputs (respond permuted) (fresh max_keys max_counters : InMemoryStorage V) requests) ∧
    (rules.Pairwise (fun one other => precedence one ≠ precedence other) →
      outputs (respond rules) (fresh max_keys max_counters : InMemoryStorage V) requests =
        outputs (respond permuted) (fresh max_keys max_counters : InMemoryStorage V) requests) ∧
    ∀ before request rest, requests = before ++ request :: rest →
      let storage := settle (respond rules) (fresh max_keys max_counters : InMemoryStorage V) before
      let outcomes := storage.issue HitCall.max_hits (request.calls rules)
      ∃ selected,
        (outputs (respond rules) (fresh max_keys max_counters : InMemoryStorage V) requests)[before.length]? =
          some (.ok selected) ∧
        (selected = none ↔ ∀ outcome ∈ outcomes, outcome.admitted = true) ∧
        ∀ matched ∈ selected, ∃ outcome ∈ outcomes, outcome.admitted = false ∧ matched.rule = outcome.1.rule ∧
          ∀ other ∈ outcomes, other.admitted = false → ¬ Precedes other.1 outcome.1 := by
  have hrun := forall₂_respond (V := V) max_keys max_counters hperm hidentifies hroom hroom'
  refine ⟨hrun.imp fun _ _ h => h.1, fun hdistinct => ?_, ?_⟩
  · rw [← List.forall₂_eq_eq_eq]
    exact hrun.imp fun _ _ h => h.2 hdistinct
  · rintro before request rest rfl storage outcomes
    obtain ⟨selected, hanswer, hselects⟩ := respond_selects (hidentifies request (by simp)) storage
    refine ⟨selected, ?_, hselects⟩
    rw [outputs_getElem?]
    exact congrArg some hanswer

/-- A rule that slows down what `Rule.one_per_minute` rejects. -/
def slow_down : Rule := { Rule.one_per_minute with action := Throttle.action ⟨1000, by decide⟩ }

/-- Two requests of one client. -/
def double_click : List PolicyRequest :=
  [⟨OrderedDict.empty.set "ip" "alice", "report", 10⟩, ⟨OrderedDict.empty.set "ip" "alice", "report", 11⟩]

theorem double_click_same :
    List.Forall₂ SameRank
      (outputs (respond [slow_down, Rule.one_per_minute]) (fresh 5 5 : InMemoryStorage PlainValue)
        double_click)
      (outputs (respond [Rule.one_per_minute, slow_down]) (fresh 5 5 : InMemoryStorage PlainValue) double_click) ∧
    outputs (respond [slow_down, Rule.one_per_minute]) (fresh 5 5 : InMemoryStorage PlainValue) double_click =
      outputs (respond [Rule.one_per_minute, slow_down]) (fresh 5 5 : InMemoryStorage PlainValue) double_click := by
  have hidentifies : ∀ request ∈ double_click, request.Identifies [slow_down, Rule.one_per_minute] := by
    intro request hrequest rule hrule
    simp only [double_click, List.mem_cons, List.not_mem_nil, or_false] at hrequest hrule
    rcases hrequest with rfl | rfl <;> rcases hrule with rfl | rfl <;> exact Option.some_ne_none "alice"
  have hdistinct : [slow_down, Rule.one_per_minute].Pairwise
      (fun one other => precedence one ≠ precedence other) := by
    decide +kernel
  obtain ⟨hranks, hequal, -⟩ := rule_order_breaks_ties (V := PlainValue) 5 5 (List.Perm.swap _ _ [])
    hidentifies (by decide +kernel) (by decide +kernel)
  exact ⟨hranks, hequal hdistinct⟩

end InMemoryStorage

end response_bandwidth_limiter.memory

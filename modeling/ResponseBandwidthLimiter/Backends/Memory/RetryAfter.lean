import ResponseBandwidthLimiter.Backends.Memory.Evaluations

open collections sliding_window
open response_bandwidth_limiter.base response_bandwidth_limiter.models response_bandwidth_limiter.policy

namespace response_bandwidth_limiter.memory

variable {V : Type}

/-- A history in time order, not ahead of the clock, and no longer than a limit. -/
structure Orderly (limit : Nat) (time : ℚ) (history : List ℚ) : Prop where
  sorted : Sorted history
  past : ∀ hit ∈ history, hit ≤ time
  short : history.length ≤ limit

/-- The hits of each counter come with one window and one count. -/
def UsesRules (rule_of : CounterKey → Rule) (accesses : List (Access V)) : Prop :=
  ∀ access ∈ accesses, ∀ counter_key window_seconds max_hits,
    access.operation = .record_hit counter_key.1 counter_key.2.1 counter_key.2.2 window_seconds max_hits →
      window_seconds = (rule_of counter_key).window_seconds ∧ max_hits = some ((rule_of counter_key).count + 1)

/-- The rules of a handler are those of the counters that their evaluation hits. -/
def HasRules (rule_of : CounterKey → Rule) (scope_identifiers : OrderedDict String String) (handler_name : String)
    (rules : List Rule) : Prop :=
  ∀ index rule request_key, rules[index]? = some rule → scope_identifiers.get? rule.scope = some request_key →
    (rule_of (request_key, handler_name, index)).window_seconds = rule.window_seconds ∧
      (rule_of (request_key, handler_name, index)).count = rule.count

theorem Orderly.nil (limit : Nat) (time : ℚ) : Orderly limit time [] := ⟨.nil, nofun, Nat.zero_le _⟩

theorem Orderly.later {limit : Nat} {time later : ℚ} {history : List ℚ} (h : Orderly limit time history)
    (hlater : time ≤ later) : Orderly limit later history :=
  ⟨h.sorted, fun hit hhit => (h.past hit hhit).trans hlater, h.short⟩

theorem Orderly.prune {limit : Nat} {time : ℚ} {history : List ℚ} (h : Orderly limit time history) (threshold : ℚ) :
    Orderly limit time (prune threshold history) :=
  ⟨prune_sorted h.sorted threshold, fun hit hhit => h.past hit ((prune_sublist _ _).subset hhit),
    (prune_sublist _ _).length_le.trans h.short⟩

theorem Orderly.record {limit : Nat} {time : ℚ} {history : List ℚ} (h : Orderly limit time history) (window : ℚ) :
    Orderly limit time (record window (some limit) history time) :=
  ⟨(record_sorted window _ h.sorted h.past).1, (record_sorted window _ h.sorted h.past).2, record_length_le h.short⟩

/-- The calls of an evaluation use the windows and counts of its rules. -/
theorem usesRules_hit_calls {rule_of : CounterKey → Rule} {scope_identifiers : OrderedDict String String}
    {handler_name : String} {rules : List Rule} {now : ℚ}
    (hrules : HasRules rule_of scope_identifiers handler_name rules)
    {numbered : List (Rule × Nat)} (hnumbered : numbered ⊆ rules.zipIdx)
    (hidentified : ∀ entry ∈ rules.zipIdx, scope_identifiers.get? entry.1.scope ≠ none) :
    UsesRules rule_of ((numbered.map (hit_call scope_identifiers handler_name now)).map
      (HitCall.access : HitCall → Access V)) := by
  intro access haccess counter_key window_seconds max_hits hoperation
  rw [List.map_map, List.mem_map] at haccess
  obtain ⟨⟨rule, index⟩, hmem, rfl⟩ := haccess
  obtain ⟨request_key, hkey⟩ := Option.ne_none_iff_exists'.mp (hidentified _ (hnumbered hmem))
  obtain ⟨hwindow, hcount⟩ := hrules index rule request_key (List.mem_zipIdx_iff_getElem?.mp (hnumbered hmem)) hkey
  simp only [Function.comp_apply, HitCall.access, hit_call, hkey, Option.getD_some, Operation.record_hit.injEq]
    at hoperation
  obtain ⟨hrequest, hhandler, hindex, rfl, rfl⟩ := hoperation
  have hown : (request_key, handler_name, index) = counter_key := by rw [hrequest, hhandler, hindex]
  rw [← hown, hwindow, hcount]
  exact ⟨rfl, rfl⟩

theorem now_of_hit_calls (scope_identifiers : OrderedDict String String) (handler_name : String) (now : ℚ)
    (numbered : List (Rule × Nat)) :
    ∀ access ∈ (numbered.map (hit_call scope_identifiers handler_name now)).map
      (HitCall.access : HitCall → Access V),
      access.now = now := by
  intro access haccess
  rw [List.map_map, List.mem_map] at haccess
  obtain ⟨_, _, rfl⟩ := haccess
  rfl

namespace InMemoryStorage

variable {self : InMemoryStorage V} {counter_key : CounterKey}

/-- What a matching rule waits for: one hit more than it allows is held, and the
    second oldest of them has to leave the window. -/
theorem verdict_eq_some {rule : Rule} {now : ℚ} {stored : List ℚ} {matched : MatchedPolicy}
    (hshort : stored.length ≤ rule.count.toNat + 1)
    (hverdict : verdict rule (hit_result now (some (rule.count + 1)) stored) = some matched) :
    stored.length = rule.count.toNat + 1 ∧ ∃ hit, stored[1]? = some hit ∧
      matched = ⟨rule, retry_after_seconds (some hit) now rule.window_seconds⟩ := by
  have hpos := rule.count_pos
  obtain ⟨hover, rfl⟩ := verdict_eq_some_iff.mp hverdict
  simp only [hit_result] at hover
  have hlength : stored.length = rule.count.toNat + 1 := by omega
  have hindex : 1 < stored.length := by omega
  have hguard : 1 < rule.count + 1 ∧ rule.count + 1 ≤ (stored.length : ℤ) := by omega
  have hretry : retry_after_timestamp (some (rule.count + 1)) stored = some stored[1] := by
    simp only [retry_after_timestamp, dif_pos hguard, List.get_eq_getElem, Option.some.injEq]
    congr 1
    omega
  refine ⟨hlength, stored[1], List.getElem?_eq_getElem hindex, ?_⟩
  simp only [retry_hit, hit_result, hretry, Option.some_or]

/-- A counter right after the hit for which its rule was matched: it holds one hit
    more than the rule allows, and the retry time is that of the second oldest. -/
structure Awaits (storage : InMemoryStorage V) (counter_key : CounterKey) (now : ℚ) (matched : MatchedPolicy)
    (hit : ℚ) : Prop where
  sorted : Sorted (storage.history counter_key)
  length_eq : (storage.history counter_key).length = matched.rule.count.toNat + 1
  hit_eq : (storage.history counter_key)[1]? = some hit
  past : hit ≤ now
  inside : now - matched.rule.window_seconds < hit
  retry_after_eq : matched.retry_after = retry_after_seconds (some hit) now matched.rule.window_seconds

/-- A hit that is over its rule's limit leaves its counter waiting. -/
theorem awaits_of_verdict {call : HitCall} {matched : MatchedPolicy}
    (horderly : Orderly (call.rule.count.toNat + 1) call.now (self.history call.counter_key))
    (hverdict : verdict call.rule (hit_result call.now call.max_hits (self.after_call call)) = some matched) :
    matched.rule = call.rule ∧
      ∃ hit, (self.hit HitCall.max_hits call).2.Awaits call.counter_key call.now matched hit := by
  have hstored : Orderly (call.rule.count.toNat + 1) call.now (self.after_call call) := by
    rw [after_call, HitCall.max_hits, capacity_rule]
    exact horderly.record _
  obtain ⟨hlength, hit, hhit, rfl⟩ := verdict_eq_some hstored.short hverdict
  have hmem := List.mem_of_getElem? hhit
  have hpos : (0 : ℚ) < call.rule.window_seconds := by exact_mod_cast call.rule.window_seconds_pos
  refine ⟨rfl, hit, ?_⟩
  have hhistory : (self.hit HitCall.max_hits call).2.history call.counter_key = self.after_call call := by
    rw [hit_eq_after_call]
    exact history_store_history_self _ _ _
  exact {
    sorted := hhistory ▸ hstored.sorted
    length_eq := hhistory ▸ hlength
    hit_eq := hhistory ▸ hhit
    past := hstored.past hit hmem
    inside := lt_of_mem_record hpos horderly.sorted hmem
    retry_after_eq := rfl }

section Runs

variable [PyValue V]

theorem orderly_access {limit : Nat} {time : ℚ} (h : Orderly limit time (self.history counter_key))
    {access : Access V} (hlater : time ≤ access.now)
    (hlimit : ∀ window_seconds max_hits, access.operation =
      .record_hit counter_key.1 counter_key.2.1 counter_key.2.2 window_seconds max_hits →
        capacity max_hits = some limit) :
    Orderly limit access.now ((self.access access).2.history counter_key) := by
  have hnow := h.later hlater
  cases hhits : access.hits counter_key with
  | true =>
    obtain ⟨window_seconds, max_hits, hoperation⟩ := Access.hits_iff.mp hhits
    have hcapacity := hlimit window_seconds max_hits hoperation
    simp only [InMemoryStorage.access, hoperation, operate]
    cases hvalid : validate_max_hits max_hits with
    | error e => simpa only [record_hit, hvalid] using hnow
    | ok _ =>
      rw [record_hit_eq_record self access.now counter_key window_seconds hvalid, hcapacity,
        history_store_history_self]
      exact hnow.record _
  | false =>
    cases hafter : (self.access access).2.request_counters.get? counter_key with
    | none =>
      rw [history, hafter]
      exact Orderly.nil limit access.now
    | some after =>
      obtain ⟨before, hbefore, hchange⟩ := get?_of_access hhits hafter
      rw [history, hbefore] at hnow
      rw [history, hafter]
      rcases hchange with rfl | ⟨_, window_seconds, -, -, -, rfl⟩
      · exact hnow
      · exact hnow.prune _

/-- In every reachable state a counter used with one rule is orderly. -/
theorem orderly_of_run {max_keys max_counters : ℕ+} {rule_of : CounterKey → Rule} {accesses : List (Access V)}
    (hmono : accesses.Pairwise (fun first second => first.now ≤ second.now)) (huses : UsesRules rule_of accesses)
    {time : ℚ} (htime : ∀ access ∈ accesses, access.now ≤ time) (counter_key : CounterKey) :
    Orderly ((rule_of counter_key).count.toNat + 1) time
      ((settle access (fresh max_keys max_counters) accesses).history counter_key) := by
  induction accesses using List.reverseRecOn generalizing time with
  | nil => exact Orderly.nil _ _
  | append_singleton before last ih =>
    rw [List.pairwise_append] at hmono
    have hbefore := ih hmono.1 (fun access haccess => huses access (List.mem_append_left _ haccess))
      (fun access haccess => hmono.2.2 access haccess last (by simp))
    rw [settle_concat]
    refine (orderly_access hbefore (le_refl _) ?_).later (htime last (by simp))
    intro window_seconds max_hits hoperation
    rw [(huses last (by simp) counter_key window_seconds max_hits hoperation).2, capacity_rule]

/-- An access leaves a counter to itself: it is no hit of it, and prunes it, if
    at all, with its own window. -/
def Spared (counter_key : CounterKey) (window_seconds : ℤ) (access : Access V) : Prop :=
  access.hits counter_key = false ∧ ∀ active_rules, access.operation = .cleanup_orphaned_counters active_rules →
    ∀ window ∈ active_window active_rules counter_key, window = window_seconds

/-- As long as a counter is left to itself and not removed, a window sees the same
    of it. -/
theorem prune_of_run {window_seconds : ℤ} {accesses : List (Access V)}
    (hspared : ∀ access ∈ accesses, Spared counter_key window_seconds access) {time : ℚ}
    (htime : ∀ access ∈ accesses, access.now ≤ time) {after : List ℚ}
    (hafter : (settle access self accesses).request_counters.get? counter_key = some after) :
    prune (time - window_seconds) after = prune (time - window_seconds) (self.history counter_key) := by
  induction accesses using List.reverseRecOn generalizing after with
  | nil =>
    rw [history, show self.request_counters.get? counter_key = some after from hafter]
    rfl
  | append_singleton earlier last ih =>
    obtain ⟨hother, hwindow⟩ := hspared last (by simp)
    rw [settle_concat] at hafter
    obtain ⟨before, hbefore, hchange⟩ := get?_of_access hother hafter
    have hsame := ih (fun access haccess => hspared access (List.mem_append_left _ haccess))
      (fun access haccess => htime access (List.mem_append_left _ haccess)) hbefore
    rcases hchange with rfl | ⟨active_rules, window, hoperation, hactive, -, rfl⟩
    · exact hsame
    · have hown : window = window_seconds := hwindow active_rules hoperation window hactive
      rw [hown]
      have hearlier : last.now - window_seconds ≤ time - window_seconds :=
        sub_le_sub_right (htime last (by simp)) _
      rw [prune_prune_of_le _ hearlier, hsame]

/-- What a waiting counter answers to its next hit, when it was left to itself
    until then. -/
theorem Awaits.next {now : ℚ} {matched : MatchedPolicy} {hit : ℚ} (h : self.Awaits counter_key now matched hit)
    {accesses : List (Access V)}
    (hspared : ∀ access ∈ accesses, Spared counter_key matched.rule.window_seconds access) {wait : ℤ}
    (htime : ∀ access ∈ accesses, access.now ≤ now + wait)
    (hkept : counter_key ∈ (settle access self accesses).request_counters.keys) :
    ∃ result, ((settle access self accesses).record_hit (now + wait) counter_key.1 counter_key.2.1 counter_key.2.2
      matched.rule.window_seconds (some (matched.rule.count + 1))).1 = .ok result ∧
      (result.hit_count ≤ matched.rule.count ↔ matched.retry_after ≤ wait) := by
  have hpos := matched.rule.count_pos
  obtain ⟨after, hafter⟩ := OrderedDict.mem_keys_iff.mp hkept
  have hsame := prune_of_run hspared htime hafter
  rw [record_hit_eq_record _ _ _ _ (validate_max_hits_rule matched.rule)]
  refine ⟨_, rfl, ?_⟩
  have hhistory : (settle access self accesses).history counter_key = after := by rw [history, hafter]; rfl
  have hwithin := record_full_length_le_iff h.sorted h.length_eq h.hit_eq hsame
  rw [h.retry_after_eq, retry_after_seconds_le_iff h.inside, ← hwithin, hhistory, capacity_rule]
  simp only [hit_result]
  omega

/-- During an evaluation, too, the counters are orderly. -/
theorem orderly_during_evaluate {max_keys max_counters : ℕ+} {rule_of : CounterKey → Rule}
    {accesses : List (Access V)} (hmono : accesses.Pairwise (fun first second => first.now ≤ second.now))
    (huses : UsesRules rule_of accesses) {now : ℚ} (hnow : ∀ access ∈ accesses, access.now ≤ now)
    {scope_identifiers : OrderedDict String String} {handler_name : String} {rules : List Rule}
    (hrules : HasRules rule_of scope_identifiers handler_name rules)
    {numbered : List (Rule × Nat)} (hnumbered : numbered ⊆ rules.zipIdx)
    (hidentified : ∀ entry ∈ rules.zipIdx, scope_identifiers.get? entry.1.scope ≠ none) (counter_key : CounterKey) :
    Orderly ((rule_of counter_key).count.toNat + 1) now
      (((settle access (fresh max_keys max_counters) accesses).drive HitCall.max_hits
        (numbered.map (hit_call scope_identifiers handler_name now))).history counter_key) := by
  have hcalls := now_of_hit_calls (V := V) scope_identifiers handler_name now numbered
  rw [drive_eq_settle, ← settle_append]
  refine orderly_of_run ?_ ?_ ?_ counter_key
  · refine List.pairwise_append.mpr ⟨hmono, List.pairwise_of_forall_mem_list ?_, ?_⟩
    · intro one hone other hother
      rw [hcalls one hone, hcalls other hother]
    · intro one hone other hother
      rw [hcalls other hother]
      exact hnow one hone
  · intro access haccess
    rcases List.mem_append.mp haccess with hbefore | hcall
    · exact huses access hbefore
    · exact usesRules_hit_calls hrules hnumbered hidentified access hcall
  · intro access haccess
    rcases List.mem_append.mp haccess with hbefore | hcall
    · exact hnow access hbefore
    · exact (hcalls access hcall).le

omit [PyValue V] in
/-- The calls for the later rules of an evaluation spare the counter of a rule. -/
theorem spared_by_hit_calls {scope_identifiers : OrderedDict String String} {handler_name : String}
    {rules : List Rule} {first last : List (Rule × Nat)} {rule : Rule} {index : Nat}
    (hzip : rules.zipIdx = first ++ (rule, index) :: last) (now : ℚ) (request_key : String) (window_seconds : ℤ) :
    ∀ access ∈ (last.map (hit_call scope_identifiers handler_name now)).map (HitCall.access : HitCall → Access V),
      Spared (request_key, handler_name, index) window_seconds access := by
  intro access haccess
  rw [List.map_map, List.mem_map] at haccess
  obtain ⟨⟨other, position⟩, hother, rfl⟩ := haccess
  have hnodup := nodup_positions rules
  rw [hzip, List.map_append, List.map_cons] at hnodup
  have hfresh := (List.nodup_cons.mp (List.nodup_append.mp hnodup).2.1).1
  have hne : index ≠ position := by
    rintro rfl
    exact hfresh (List.mem_map.mpr ⟨_, hother, rfl⟩)
  refine ⟨by simp [HitCall.access, hit_call, Access.hits, hne.symm], ?_⟩
  intro active_rules hoperation
  cases hoperation

/-- An evaluation that matches ends its calls on other counters after the one that
    left the matched rule's counter waiting. -/
theorem exists_awaits_of_evaluate {max_keys max_counters : ℕ+} {rule_of : CounterKey → Rule}
    {accesses : List (Access V)} (hmono : accesses.Pairwise (fun first second => first.now ≤ second.now))
    (huses : UsesRules rule_of accesses) {now : ℚ} (hnow : ∀ access ∈ accesses, access.now ≤ now)
    {scope_identifiers : OrderedDict String String} {handler_name : String} {rules : List Rule}
    (hrules : HasRules rule_of scope_identifiers handler_name rules)
    {matched : MatchedPolicy} {storage : InMemoryStorage V}
    (hmatch : evaluate (fun storage => storage.record_hit now) (settle access (fresh max_keys max_counters) accesses)
      scope_identifiers handler_name rules = (.ok (some matched), storage)) :
    ∃ index request_key recorded hit later, rules[index]? = some matched.rule ∧
      scope_identifiers.get? matched.rule.scope = some request_key ∧
      Awaits recorded (request_key, handler_name, index) now matched hit ∧ storage = settle access recorded later ∧
      ∀ access ∈ later, access.now = now ∧
        Spared (request_key, handler_name, index) matched.rule.window_seconds access := by
  have hidentified := evaluate_rules_identified _ (congrArg Prod.fst hmatch)
  rw [evaluate, evaluate_rules_eq hidentified, Prod.mk.injEq, Except.ok.injEq, List.nil_append] at hmatch
  obtain ⟨hselected, rfl⟩ := hmatch
  obtain ⟨candidate, hcandidate, rfl, -⟩ := exists_of_select_rule_action hselected
  obtain ⟨outcome, houtcome, hcandidate⟩ := List.mem_filterMap.mp hcandidate
  obtain ⟨before, call, after, hsplit, rfl⟩ := exists_of_mem_issue houtcome
  obtain ⟨first, rest, hzip, rfl, hrest⟩ := List.map_eq_append_iff.mp hsplit
  obtain ⟨⟨rule, index⟩, last, rfl, rfl, rfl⟩ := List.map_eq_cons_iff.mp hrest
  have hmem : (rule, index) ∈ rules.zipIdx := by simp [hzip]
  have hindex := List.mem_zipIdx_iff_getElem?.mp hmem
  obtain ⟨request_key, hkey⟩ := Option.ne_none_iff_exists'.mp (hidentified _ hmem)
  have hcall : hit_call scope_identifiers handler_name now (rule, index) =
      ⟨request_key, handler_name, index, rule, now⟩ := by simp [hit_call, hkey]
  have horderly : Orderly (rule.count.toNat + 1) now
      (((settle access (fresh max_keys max_counters) accesses).drive HitCall.max_hits
        (first.map (hit_call scope_identifiers handler_name now))).history (request_key, handler_name, index)) := by
    rw [← (hrules index rule request_key hindex hkey).2]
    exact orderly_during_evaluate hmono huses hnow hrules (by simp [hzip]) hidentified _
  rw [hcall, hit_eq_after_call] at hcandidate
  obtain ⟨matched, hverdict, rfl⟩ := Option.map_eq_some_iff.mp hcandidate
  obtain ⟨hrule, hit, hawaits⟩ := awaits_of_verdict horderly hverdict
  simp only at hrule
  refine ⟨index, request_key, _, hit, (last.map (hit_call scope_identifiers handler_name now)).map HitCall.access,
    hrule ▸ hindex, hrule ▸ hkey, hawaits, ?_, ?_⟩
  · rw [hsplit, hcall, ← drive_eq_settle, drive, settle_append]
    rfl
  · intro access haccess
    exact ⟨now_of_hit_calls scope_identifiers handler_name now last access haccess,
      spared_by_hit_calls hzip now request_key _ access haccess⟩

/-- The retry time is sufficient and least. When an evaluation matches a rule in a
    reachable state, and the rule's counter is then left to itself and not
    removed, the next hit is within the limit exactly from the retry time on. -/
theorem retry_after_sufficient_and_least {max_keys max_counters : ℕ+} {rule_of : CounterKey → Rule}
    {accesses : List (Access V)} (hmono : accesses.Pairwise (fun first second => first.now ≤ second.now))
    (huses : UsesRules rule_of accesses) {now : ℚ} (hnow : ∀ access ∈ accesses, access.now ≤ now)
    {scope_identifiers : OrderedDict String String} {handler_name : String} {rules : List Rule}
    (hrules : ∀ index rule request_key, rules[index]? = some rule →
      scope_identifiers.get? rule.scope = some request_key →
      (rule_of (request_key, handler_name, index)).window_seconds = rule.window_seconds ∧
        (rule_of (request_key, handler_name, index)).count = rule.count)
    {matched : MatchedPolicy} {storage : InMemoryStorage V}
    (hmatch : evaluate (fun storage => storage.record_hit now) (settle access (fresh max_keys max_counters) accesses)
      scope_identifiers handler_name rules = (.ok (some matched), storage)) :
    (1 ≤ matched.retry_after ∧ matched.retry_after ≤ matched.rule.window_seconds) ∧
    ∃ index request_key, rules[index]? = some matched.rule ∧
      scope_identifiers.get? matched.rule.scope = some request_key ∧
      ∀ (others : List (Access V)) (wait : ℤ), 0 ≤ wait →
        (∀ access ∈ others, access.now ≤ now + wait ∧
          Spared (request_key, handler_name, index) matched.rule.window_seconds access) →
        (request_key, handler_name, index) ∈ (settle access storage others).request_counters.keys →
        ∃ result, ((settle access storage others).record_hit (now + wait) request_key handler_name index
          matched.rule.window_seconds (some (matched.rule.count + 1))).1 = .ok result ∧
          (result.hit_count ≤ matched.rule.count ↔ matched.retry_after ≤ wait) := by
  obtain ⟨index, request_key, recorded, hit, later, hindex, hkey, hawaits, rfl, hlater⟩ :=
    exists_awaits_of_evaluate hmono huses hnow hrules hmatch
  have hwindow := matched.rule.window_seconds_pos
  refine ⟨?_, index, request_key, hindex, hkey, ?_⟩
  · rw [hawaits.retry_after_eq]
    exact retry_after_seconds_bounds hawaits.past (by omega)
  · intro others wait hwait hothers hkept
    rw [← settle_append] at hkept ⊢
    have hnonneg : (0 : ℚ) ≤ wait := by exact_mod_cast hwait
    refine hawaits.next ?_ ?_ hkept
    · intro access haccess
      rcases List.mem_append.mp haccess with hown | hother
      · exact (hlater access hown).2
      · exact (hothers access hother).2
    · intro access haccess
      rcases List.mem_append.mp haccess with hown | hother
      · rw [(hlater access hown).1]
        linarith
      · exact (hothers access hother).1

end Runs

/-- A client that was within the limit and comes back too soon. -/
def first_visit : List (Access PlainValue) :=
  [⟨10, .record_hit "alice" "report" 0 60 (some 2)⟩, ⟨20, .set "visits" (.int 1) none⟩]

/-- What the evaluator makes of its next visit at 30. -/
def second_visit (max_keys max_counters : ℕ+) :
    Except PyError (Option MatchedPolicy) × InMemoryStorage PlainValue :=
  evaluate (fun storage => storage.record_hit 30) (settle access (fresh max_keys max_counters) first_visit)
    (OrderedDict.empty.set "ip" "alice") "report" [Rule.one_per_minute]

theorem second_visit_retry_after :
    (second_visit 10 10).1.toOption.map (Option.map MatchedPolicy.retry_after) = some (some 60) := by
  decide +kernel

theorem second_visit_matched : ∃ matched, (second_visit 10 10).1 = .ok (some matched) := by
  have hsome := second_visit_retry_after
  revert hsome
  cases (second_visit 10 10).1 with
  | error e => exact nofun
  | ok selected =>
    cases selected with
    | none => exact nofun
    | some matched => exact fun _ => ⟨matched, rfl⟩

theorem third_visit_within :
    ∃ matched result, (second_visit 10 10).1 = .ok (some matched) ∧
      (1 ≤ matched.retry_after ∧ matched.retry_after ≤ 60) ∧
      ((second_visit 10 10).2.record_hit (30 + (60 : ℤ)) "alice" "report" 0 60 (some 2)).1 = .ok result ∧
      (result.hit_count ≤ 1 ↔ matched.retry_after ≤ 60) := by
  obtain ⟨⟨rule, retry_after⟩, hmatched⟩ := second_visit_matched
  have huses : UsesRules (fun _ => Rule.one_per_minute) first_visit := by
    intro access haccess counter_key window_seconds max_hits hoperation
    simp only [first_visit, List.mem_cons, List.not_mem_nil, or_false] at haccess
    rcases haccess with rfl | rfl
    · injection hoperation with _ _ _ hwindow hcap
      exact ⟨hwindow.symm, hcap.symm⟩
    · cases hoperation
  have hrules : ∀ (index : Nat) (rule : Rule) request_key, [Rule.one_per_minute][index]? = some rule →
      (OrderedDict.empty.set "ip" "alice").get? rule.scope = some request_key →
      Rule.one_per_minute.window_seconds = rule.window_seconds ∧ Rule.one_per_minute.count = rule.count := by
    intro index rule request_key hrule _
    obtain rfl := List.mem_singleton.mp (List.mem_of_getElem? hrule)
    exact ⟨rfl, rfl⟩
  have hmatch : evaluate (fun storage => storage.record_hit 30) (settle access (fresh 10 10) first_visit)
      (OrderedDict.empty.set "ip" "alice") "report" [Rule.one_per_minute] =
        (.ok (some ⟨rule, retry_after⟩), (second_visit 10 10).2) := Prod.ext hmatched rfl
  obtain ⟨hbounds, index, request_key, hindex, hkey, hlater⟩ := retry_after_sufficient_and_least
    (by decide +kernel) huses (by decide +kernel) hrules hmatch
  obtain ⟨hposition, rfl⟩ := List.getElem?_eq_some_iff.mp hindex
  obtain rfl : index = 0 := by simpa using hposition
  obtain rfl : "alice" = request_key := Option.some.inj hkey
  obtain ⟨result, hresult, hwithin⟩ := hlater [] 60 (by decide) nofun (by decide +kernel)
  refine ⟨_, result, hmatched, hbounds, hresult, ?_⟩
  rw [← hwithin]
  exact Nat.cast_le_one.symm

end InMemoryStorage

end response_bandwidth_limiter.memory

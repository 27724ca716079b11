import ResponseBandwidthLimiter.Backends.Manager.FixedWindow
import ResponseBandwidthLimiter.Backends.Memory.Histories
import ResponseBandwidthLimiter.SlidingWindow.Shared

open collections sliding_window
open response_bandwidth_limiter.base response_bandwidth_limiter.models

namespace response_bandwidth_limiter.base

variable {V : Type}

/-- An access that leaves the counter of an active rule in place: it discards no
    counters of the handler, and an orphan cleanup knows the rule. -/
def Access.Keeps (self : Access V) (counter_key : memory.CounterKey) (rule : Rule) : Prop :=
  match self.operation with
  | .cleanup_handler_counters handler_name => handler_name ≠ counter_key.2.1
  | .cleanup_orphaned_counters active_rules =>
    memory.InMemoryStorage.active_window active_rules counter_key = some rule.window_seconds
  | _ => True

/-- A hit of the counter that the evaluator makes for a rule. -/
def Access.Follows (self : Access V) (counter_key : memory.CounterKey) (rule : Rule) : Prop :=
  self.hits counter_key = true →
    self.operation = .record_hit counter_key.1 counter_key.2.1 counter_key.2.2 rule.window_seconds
      (some (rule.count + 1))

end response_bandwidth_limiter.base

namespace response_bandwidth_limiter.memory.InMemoryStorage

variable {V : Type}

/-- A storage that has room for all counters of a run, and whose stored hits of
    one of them cover the hits within the limit of its rule. -/
structure Covered (storage : InMemoryStorage V) (counter_key : CounterKey) (rule : Rule) (known : Finset CounterKey)
    (now : ℚ) (past : List ℚ) : Prop where
  keys : ∀ key ∈ storage.request_counters.keys, key ∈ known
  room : known.card ≤ (storage.max_counters : Nat)
  covers : Covers (rule.window_seconds : ℚ) rule.count.toNat now (storage.history counter_key) past

variable {self next : InMemoryStorage V} {counter_key : CounterKey} {rule : Rule} {known : Finset CounterKey}
  {now : ℚ} {past : List ℚ}

theorem Covered.of_empty (hempty : self.request_counters = .empty) (hroom : known.card ≤ (self.max_counters : Nat))
    (counter_key : CounterKey) (rule : Rule) (now : ℚ) : self.Covered counter_key rule known now [] where
  keys := by simp [hempty]
  room := hroom
  covers := by
    have hhistory : self.history counter_key = [] := by
      rw [history, hempty]
      rfl
    rw [hhistory]
    exact Covers.nil _ _ _

theorem Covered.wait (h : self.Covered counter_key rule known now past) {later : ℚ} (hle : now ≤ later) :
    self.Covered counter_key rule known later past :=
  ⟨h.keys, h.room, h.covers.wait hle⟩

theorem Covered.of_sublist (h : self.Covered counter_key rule known now past) {fewer : List ℚ}
    (hfewer : fewer.Sublist past) : self.Covered counter_key rule known now fewer :=
  ⟨h.keys, h.room, h.covers.of_sublist hfewer⟩

theorem Covered.congr (h : self.Covered counter_key rule known now past) (hsame : self.SameCounters next) :
    next.Covered counter_key rule known now past where
  keys := hsame.1 ▸ h.keys
  room := hsame.2 ▸ h.room
  covers := by
    have hhistory : next.history counter_key = self.history counter_key := by simp only [history, hsame.1]
    exact hhistory ▸ h.covers

/-- There is room for a counter among those that the storage has room for. -/
theorem has_room_of_known (hkeys : ∀ key ∈ self.request_counters.keys, key ∈ known)
    (hroom : known.card ≤ (self.max_counters : Nat)) {query : CounterKey} (hquery : query ∈ known) :
    query ∈ self.request_counters.keys ∨ self.request_counters.size < self.max_counters := by
  by_cases hmem : query ∈ self.request_counters.keys
  · exact Or.inl hmem
  · right
    have hnodup : (query :: self.request_counters.keys).Nodup :=
      List.nodup_cons.mpr ⟨hmem, self.request_counters.nodup_keys⟩
    have hsubset : (query :: self.request_counters.keys).toFinset ⊆ known := by
      intro key hkey
      rcases List.mem_cons.mp (List.mem_toFinset.mp hkey) with rfl | hkey
      · exact hquery
      · exact hkeys key hkey
    have hcard := (Finset.card_le_card hsubset).trans hroom
    rw [List.toFinset_card_of_nodup hnodup, List.length_cons, OrderedDict.keys_length] at hcard
    omega

theorem Covered.has_room (h : self.Covered counter_key rule known now past) {query : CounterKey}
    (hquery : query ∈ known) :
    query ∈ self.request_counters.keys ∨ self.request_counters.size < self.max_counters :=
  has_room_of_known h.keys h.room hquery

theorem Covered.store (h : self.Covered counter_key rule known now past) {query : CounterKey}
    (hquery : query ∈ known)
    {stored : List ℚ} {later : ℚ} {after : List ℚ}
    (hcovers : Covers (rule.window_seconds : ℚ) rule.count.toNat later
      ((self.store_history query stored).history counter_key) after) :
    (self.store_history query stored).Covered counter_key rule known later after where
  keys key hkey := by
    rcases OrderedDict.mem_keys_set.mp hkey with rfl | hkey
    · exact hquery
    · exact h.keys key hkey
  room := h.room
  covers := hcovers

/-- A hit of the counter for its rule. -/
theorem Covered.record_hit (h : self.Covered counter_key rule known now past) {later : ℚ} (hle : now ≤ later)
    (hknown : counter_key ∈ known) :
    let hit := self.record_hit later counter_key.1 counter_key.2.1 counter_key.2.2 rule.window_seconds
      (some (rule.count + 1))
    hit.2.Covered counter_key rule known later
      (if Reply.within (V := V) rule.count (hit.1.map .hit) then past ++ [later] else past) := by
  have hrecorded := h.covers.record hle
  rw [self.record_hit_eq later _ _ _ _ (validate_max_hits_rule rule) (h.has_room hknown), capacity_rule]
  refine h.store hknown ?_
  rw [history_store_history_self]
  have hcount : ∀ stored : List ℚ, Reply.within (V := V) rule.count (Except.map Reply.hit
      (.ok (hit_result later (some (rule.count + 1)) stored))) = decide (stored.length ≤ rule.count.toNat) := by
    have hpos := rule.count_pos
    intro stored
    simp only [Except.map, Reply.within, hit_result, decide_eq_decide]
    omega
  simp only [hcount, decide_eq_true_eq]
  exact hrecorded

/-- A hit of another counter. -/
theorem Covered.record_hit_other (h : self.Covered counter_key rule known now past) {later : ℚ} (hle : now ≤ later)
    {query : CounterKey} (hquery : query ∈ known) (hne : counter_key ≠ query) (window_seconds : ℤ)
    (max_hits : Option ℤ) :
    (self.record_hit later query.1 query.2.1 query.2.2 window_seconds max_hits).2.Covered counter_key rule
      known later
      past := by
  cases hvalid : validate_max_hits max_hits with
  | error e =>
    simp only [InMemoryStorage.record_hit, hvalid]
    exact h.wait hle
  | ok _ =>
    rw [self.record_hit_eq later _ _ _ _ hvalid (h.has_room hquery)]
    refine h.store hquery ?_
    rw [history_store_history_of_ne _ _ hne]
    exact (h.wait hle).covers

/-- An access that is no hit adds no counter. -/
theorem Covered.keys_of_access [PyValue V] (h : self.Covered counter_key rule known now past) (access : Access V)
    (hother : ∀ query, access.hits query = false) :
    ∀ key ∈ (self.access access).2.request_counters.keys, key ∈ known := by
  intro key hkey
  obtain ⟨stored, hstored⟩ := OrderedDict.mem_keys_iff.mp hkey
  obtain ⟨before, hbefore, -⟩ := get?_of_access (hother key) hstored
  exact h.keys key (OrderedDict.mem_keys_iff.mpr ⟨before, hbefore⟩)

theorem Covered.cleanup_handler_counters [PyValue V] (h : self.Covered counter_key rule known now past) {later : ℚ}
    (hle : now ≤ later) {handler_name : String} (hstays : counter_key.2.1 ≠ handler_name) :
    (self.cleanup_handler_counters handler_name).Covered counter_key rule known later past where
  keys := h.keys_of_access ⟨later, .cleanup_handler_counters handler_name⟩ fun _ => rfl
  room := by
    have hsame : (self.cleanup_handler_counters handler_name).max_counters = self.max_counters :=
      foldl_delete_key_max_counters _ _
    exact hsame ▸ h.room
  covers := by
    have hhistory := self.history_cleanup_handler_counters handler_name counter_key
    rw [if_neg hstays] at hhistory
    exact hhistory ▸ (h.wait hle).covers

theorem Covered.cleanup_orphaned_counters [PyValue V] (h : self.Covered counter_key rule known now past) {later : ℚ}
    (hle : now ≤ later) {active_rules : OrderedDict String (List Rule)}
    (hwindow : active_window active_rules counter_key = some rule.window_seconds) :
    (self.cleanup_orphaned_counters later active_rules).Covered counter_key rule known later past where
  keys := h.keys_of_access ⟨later, .cleanup_orphaned_counters active_rules⟩ fun _ => rfl
  room := h.room
  covers := by
    have hhistory := self.history_cleanup_orphaned_counters later active_rules counter_key
    rw [hwindow] at hhistory
    exact hhistory ▸ h.covers.advance hle

/-- The step lemma of a storage that is accessed in every way. Only the hits of
    the counter that are within its limit add to what has to be covered. -/
theorem Covered.access [PyValue V] (h : self.Covered counter_key rule known now past) {access : Access V}
    (hle : now ≤ access.now) (hknown : ∀ query, access.hits query = true → query ∈ known)
    (hfollows : access.Follows counter_key rule) (hkeeps : access.Keeps counter_key rule) :
    (self.access access).2.Covered counter_key rule known access.now
      (if access.hits counter_key && Reply.within rule.count (self.access access).1 then past ++ [access.now]
        else past) := by
  obtain ⟨later, operation⟩ := access
  have hvalue : ∀ key, operation.key = some key →
      (self.operate later operation).2.Covered counter_key rule known later past := by
    intro key hkey
    exact (h.wait hle).congr (self.same_counters_operate later hkey)
  cases operation with
  | record_hit request_key handler_name rule_index window_seconds max_hits =>
    by_cases hown : (request_key, handler_name, rule_index) = counter_key
    · have hhits : (⟨later, .record_hit request_key handler_name rule_index window_seconds max_hits⟩ : Access V).hits
          counter_key = true := decide_eq_true hown
      have hoperation := hfollows hhits
      simp only [Operation.record_hit.injEq] at hoperation
      obtain ⟨rfl, rfl, rfl, rfl, rfl⟩ := hoperation
      rw [hhits, Bool.true_and]
      exact h.record_hit hle (hknown counter_key hhits)
    · have hother : (⟨later, .record_hit request_key handler_name rule_index window_seconds max_hits⟩ : Access V).hits
          counter_key = false := decide_eq_false hown
      rw [hother, Bool.false_and, if_neg Bool.false_ne_true]
      exact h.record_hit_other hle (hknown (request_key, handler_name, rule_index) (by simp [Access.hits]))
        (fun heq => hown heq.symm) window_seconds max_hits
  | cleanup_handler_counters handler_name =>
    exact h.cleanup_handler_counters hle fun heq => hkeeps heq.symm
  | cleanup_orphaned_counters active_rules =>
    exact h.cleanup_orphaned_counters hle hkeeps
  | get key => exact hvalue key rfl
  | set key value expire => exact hvalue key rfl
  | incr key expire => exact hvalue key rfl
  | delete key => exact hvalue key rfl

/-- Accesses in time order among which a rule keeps its counter. -/
structure Undisturbed (accesses : List (Access V)) (counter_key : CounterKey) (rule : Rule)
    (known : Finset CounterKey) : Prop where
  mono : accesses.Pairwise (fun first second => first.now ≤ second.now)
  known : ∀ access ∈ accesses, ∀ query, access.hits query = true → query ∈ known
  follows : ∀ access ∈ accesses, access.Follows counter_key rule
  keeps : ∀ access ∈ accesses, access.Keeps counter_key rule

theorem Undisturbed.before {before : List (Access V)} {access : Access V}
    (h : Undisturbed (before ++ [access]) counter_key rule known) : Undisturbed before counter_key rule known where
  mono := (List.pairwise_append.mp h.mono).1
  known other hother := h.known other (List.mem_append_left _ hother)
  follows other hother := h.follows other (List.mem_append_left _ hother)
  keeps other hother := h.keeps other (List.mem_append_left _ hother)

/-- The times of the hits of a counter that were within a limit. -/
def admitted_times (counter_key : CounterKey) (count : ℤ) (entries : List (Access V × Except PyError (Reply V))) :
    List ℚ :=
  (entries.filter (fun entry => entry.1.hits counter_key && Reply.within count entry.2)).map
    (fun entry => entry.1.now)

theorem admitted_times_concat (counter_key : CounterKey) (count : ℤ)
    (entries : List (Access V × Except PyError (Reply V))) (entry : Access V × Except PyError (Reply V)) :
    admitted_times counter_key count (entries ++ [entry]) =
      if entry.1.hits counter_key && Reply.within count entry.2
        then admitted_times counter_key count entries ++ [entry.1.now]
        else admitted_times counter_key count entries := by
  unfold admitted_times
  rw [List.filter_append, List.map_append, List.filter_singleton]
  cases entry.1.hits counter_key && Reply.within count entry.2 with
  | true => rfl
  | false => simp

section Runs

variable [PyValue V]

/-- An access together with its reply. -/
def answer (self : InMemoryStorage V) (access : Access V) :
    (Access V × Except PyError (Reply V)) × InMemoryStorage V :=
  ((access, (self.access access).1), (self.access access).2)

/-- The run lemma. -/
theorem settle_covered (hempty : self.request_counters = .empty) (hroom : known.card ≤ (self.max_counters : Nat))
    {accesses : List (Access V)} (haccesses : Undisturbed accesses counter_key rule known)
    (hnow : ∀ access ∈ accesses, access.now ≤ now) :
    (settle answer self accesses).Covered counter_key rule known now
      (admitted_times counter_key rule.count (outputs answer self accesses)) := by
  induction accesses using List.reverseRecOn generalizing now with
  | nil => exact .of_empty hempty hroom counter_key rule now
  | append_singleton before access ih =>
    obtain ⟨-, -, hlast⟩ := List.pairwise_append.mp haccesses.mono
    have hmem : access ∈ before ++ [access] := by simp
    have hcovered := ih haccesses.before (fun other hother => hlast other hother access (by simp))
    rw [outputs_concat, settle_concat, admitted_times_concat]
    exact (hcovered.access (le_refl _) (haccesses.known access hmem) (haccesses.follows access hmem)
      (haccesses.keeps access hmem)).wait (hnow access hmem)

/-- In every window the storage admits at most the limit, whatever else it is
    used for. -/
theorem admitted_countP_le (hempty : self.request_counters = .empty)
    (hroom : known.card ≤ (self.max_counters : Nat)) {accesses : List (Access V)}
    (haccesses : Undisturbed accesses counter_key rule known) (last : ℚ) :
    (outputs answer self accesses).countP (fun entry => (entry.1.hits counter_key &&
      (last - rule.window_seconds < entry.1.now && entry.1.now ≤ last)) && Reply.within rule.count entry.2) ≤
        rule.count.toNat := by
  obtain ⟨now, hnow⟩ : ∃ now, ∀ access ∈ accesses, access.now ≤ now := by
    refine ⟨(accesses.map (fun access => access.now)).foldr max 0, fun access haccess => ?_⟩
    exact List.le_max_of_le' _ (List.mem_map_of_mem haccess) (le_refl _)
  have hcovered := settle_covered hempty hroom haccesses hnow
  refine le_trans ?_ (hcovered.covers.bounded last)
  rw [within, admitted_times, List.filter_map, List.length_map, List.filter_filter, ← List.countP_eq_length_filter]
  apply List.countP_mono_left
  intro entry _ hcount
  simp only [Bool.and_eq_true, decide_eq_true_eq] at hcount
  obtain ⟨⟨hhits, hwindow⟩, hwithin⟩ := hcount
  simp [hhits, hwithin, hwindow]

end Runs

end response_bandwidth_limiter.memory.InMemoryStorage

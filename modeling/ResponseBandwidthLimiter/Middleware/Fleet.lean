import ResponseBandwidthLimiter.Collections.Runs
import ResponseBandwidthLimiter.Middleware.IpGate
import ResponseBandwidthLimiter.Middleware.RateLimit
import ResponseBandwidthLimiter.Middleware.RequestGate

open collections
open response_bandwidth_limiter.base response_bandwidth_limiter.models response_bandwidth_limiter.policy
open response_bandwidth_limiter.limiter response_bandwidth_limiter.shutdown

namespace response_bandwidth_limiter.middleware

/-- A storage as several middlewares share it: the call that a worker makes to
    count a hit of a rule in some environment, what a call does, and the result
    of a hit that an outcome stands for. -/
structure Backend (S E C O : Type) where
  hit : Nat → E → String → String → Nat → Rule → C
  perform : S → C → O × S
  result : O → Option (Except PyError SlidingWindowResult)

/-- A hit that the evaluation of a request asked for, and what came of it. -/
structure RequestHit (O : Type) where
  worker : Nat
  index : Nat
  rule : Rule
  outcome : O

/-- Middlewares with a storage in common. The calls that the storage has
    answered, and the hits of requests among them, are kept for the record. -/
structure Fleet (S C O : Type) where
  store : S
  worlds : Nat → World
  calls : List C
  ledger : List (RequestHit O)

/-- A step of the fleet: someone calls the storage, the storage answers a
    request that counts a hit, or a middleware takes a step of its own. -/
inductive FleetLabel (E C : Type) where
  | operate (call : C)
  | consult (worker index : Nat) (env : E)
  | take (worker : Nat) (label : Label)

/-- The answer of a hit, which only the storage gives. -/
def Label.answers_hit : Label → Bool
  | .resume _ (.hit _) => true
  | _ => false

/-- An answered hit over the limit of a rule that prevails turns its request
    away. -/
theorem World.Serves.turnedAway_of_hit {world next : World} {handler_name : String} {rules : List Rule}
    (h : world.Serves handler_name rules) {index : Nat} {task : Task} (htask : world.tasks[index]? = some task)
    {evaluation : Evaluation} {route_limit : Option ℤ} (hphase : task.phase = .evaluating evaluation route_limit)
    (hname : evaluation.handler_name = handler_name) {request_key : String} {position : Nat} {rule : Rule}
    (hnext : evaluation.next = .record_hit request_key position rule) (hprevails : Prevails rules rule)
    {result : Except PyError SlidingWindowResult}
    (hover : ∀ reported, result = .ok reported → rule.count < reported.hit_count)
    (hstep : world.step (.resume index (.of_result .hit result)) = some next) :
    ∃ later, next.tasks[index]? = some later ∧ later.TurnedAway rules := by
  have hmem := List.mem_of_getElem? htask
  obtain ⟨other, frame, hother, hframe, rfl⟩ := World.step_resume hstep
  cases htask.symm.trans hother
  refine ⟨frame.task, List.getElem?_set_self (List.getElem?_eq_some_iff.mp htask).1, ?_⟩
  have huninvoked : Frame.Uninvoked ⟨world.coordinator, task⟩ :=
    (h.accounted.bindings task hmem).uncalled (by rw [hphase]; rfl)
  refine Frame.turnedAway_of_hit hphase huninvoked (h.evaluates task hmem evaluation route_limit hphase hname) hnext
    hprevails ?_ hframe
  intro answered hanswered
  cases result with
  | error error => cases error <;> cases hanswered
  | ok reported =>
    cases hanswered
    exact hover _ rfl

namespace Fleet

variable {S E C O : Type} (backend : Backend S E C O)

def init (store : S) (limiters : Nat → Limiter) : Fleet S C O := ⟨store, fun worker => .init (limiters worker), [], []⟩

def step (self : Fleet S C O) : FleetLabel E C → Option (Fleet S C O)
  | .operate call => some { self with store := (backend.perform self.store call).2, calls := self.calls ++ [call] }
  | .consult worker index env => do
    let task ← (self.worlds worker).tasks[index]?
    match task.phase with
    | .evaluating evaluation _ =>
      match evaluation.next with
      | .record_hit request_key rule_index rule =>
        let call := backend.hit worker env request_key evaluation.handler_name rule_index rule
        let (outcome, store) := backend.perform self.store call
        let result ← backend.result outcome
        let world ← (self.worlds worker).step (.resume index (.of_result .hit result))
        return {
          store
          worlds := Function.update self.worlds worker world
          calls := self.calls ++ [call]
          ledger := self.ledger ++ [⟨worker, index, rule, outcome⟩] }
      | _ => none
    | _ => none
  | .take worker label =>
    if label.answers_hit then none
    else
      ((self.worlds worker).step label).map
        (fun world => { self with worlds := Function.update self.worlds worker world })

variable {backend}

theorem step_consult {self next : Fleet S C O} {worker index : Nat} {env : E}
    (hstep : self.step backend (.consult worker index env) = some next) :
    ∃ task evaluation route_limit request_key rule_index rule result world,
      (self.worlds worker).tasks[index]? = some task ∧ task.phase = .evaluating evaluation route_limit ∧
      evaluation.next = .record_hit request_key rule_index rule ∧
      (let call := backend.hit worker env request_key evaluation.handler_name rule_index rule
       backend.result (backend.perform self.store call).1 = some result ∧
       (self.worlds worker).step (.resume index (.of_result .hit result)) = some world ∧
       next = ⟨(backend.perform self.store call).2, Function.update self.worlds worker world, self.calls ++ [call],
         self.ledger ++ [⟨worker, index, rule, (backend.perform self.store call).1⟩]⟩) := by
  simp only [step, Option.bind_eq_bind, Option.bind_eq_some_iff] at hstep
  obtain ⟨task, htask, hstep⟩ := hstep
  split at hstep
  · next evaluation route_limit hphase =>
    split at hstep
    · next request_key rule_index rule hnext =>
      simp only [Option.bind_eq_some_iff, Option.pure_def, Option.some.injEq] at hstep
      obtain ⟨result, hresult, world, hworld, rfl⟩ := hstep
      exact ⟨task, evaluation, route_limit, request_key, rule_index, rule, result, world, htask, hphase, hnext,
        hresult, hworld, rfl⟩
    · cases hstep
  · cases hstep

theorem step_take {self next : Fleet S C O} {worker : Nat} {label : Label}
    (hstep : self.step backend (.take worker label) = some next) :
    ∃ world, (self.worlds worker).step label = some world ∧
      next = { self with worlds := Function.update self.worlds worker world } := by
  simp only [step] at hstep
  split at hstep
  · cases hstep
  · obtain ⟨world, hworld, rfl⟩ := Option.map_eq_some_iff.mp hstep
    exact ⟨world, hworld, rfl⟩

/-- Outcomes that are told apart by whether they are hits of one rule of a
    handler, and whether these are within its limit. -/
structure Tells (backend : Backend S E C O) (handler_name : String) (rule_index : Nat) (rule : Rule)
    (counted within_limit : O → Bool) : Prop where
  own : ∀ store worker env request_key name index other,
    counted (backend.perform store (backend.hit worker env request_key name index other)).1 = true →
      name = handler_name ∧ index = rule_index
  exceeds : ∀ outcome result, within_limit outcome = false → backend.result outcome = some (.ok result) →
    rule.count < result.hit_count

/-- The record of a fleet tells what its storage did, and the requests whose hit
    was not within the limit are turned away. -/
structure Metered (backend : Backend S E C O) (store : S) (handler_name : String) (rules : List Rule)
    (counted within_limit : O → Bool) (fleet : Fleet S C O) : Prop where
  settled : fleet.store = settle backend.perform store fleet.calls
  recorded : (fleet.ledger.map RequestHit.outcome).Sublist (outputs backend.perform store fleet.calls)
  serves : ∀ worker, (fleet.worlds worker).Serves handler_name rules
  turned_away : ∀ hit ∈ fleet.ledger, counted hit.outcome = true → within_limit hit.outcome = false →
    ∃ task, (fleet.worlds hit.worker).tasks[hit.index]? = some task ∧ task.TurnedAway rules

section Metering

variable {store : S} {handler_name : String} {rules : List Rule} {rule_index : Nat} {rule : Rule}
  {counted within_limit : O → Bool} {self next : Fleet S C O}

theorem init_metered {limiters : Nat → Limiter}
    (hpolicy : ∀ worker, (limiters worker).get_rules handler_name = rules) :
    (init store limiters).Metered backend store handler_name rules counted within_limit where
  settled := rfl
  recorded := List.Sublist.refl _
  serves worker := World.init_serves (hpolicy worker)
  turned_away _ hhit := absurd hhit List.not_mem_nil

/-- A step of one middleware leaves the requests of all of them turned away. -/
theorem Metered.turned_away_step (h : self.Metered backend store handler_name rules counted within_limit)
    {worker : Nat} {label : Label} {world : World} (hworld : (self.worlds worker).step label = some world)
    {hit : RequestHit O} (hhit : hit ∈ self.ledger) (hcounted : counted hit.outcome = true)
    (hover : within_limit hit.outcome = false) :
    ∃ task, (Function.update self.worlds worker world hit.worker).tasks[hit.index]? = some task ∧
      task.TurnedAway rules := by
  obtain ⟨task, htask, hturned⟩ := h.turned_away hit hhit hcounted hover
  by_cases hworker : hit.worker = worker
  · subst hworker
    rw [Function.update_self]
    exact World.turnedAway_step htask hturned hworld
  · rw [Function.update_of_ne hworker]
    exact ⟨task, htask, hturned⟩

theorem Metered.serves_step (h : self.Metered backend store handler_name rules counted within_limit) {worker : Nat}
    {label : Label} (hkeeps : label.KeepsRules handler_name rules) {world : World}
    (hworld : (self.worlds worker).step label = some world) :
    ∀ other, (Function.update self.worlds worker world other).Serves handler_name rules := by
  intro other
  by_cases hother : other = worker
  · subst hother
    rw [Function.update_self]
    exact (h.serves other).step hkeeps hworld
  · rw [Function.update_of_ne hother]
    exact h.serves other

/-- The step lemma. -/
theorem Metered.step (h : self.Metered backend store handler_name rules counted within_limit)
    (htells : Tells backend handler_name rule_index rule counted within_limit)
    (hrule : rules[rule_index]? = some rule) (hprevails : Prevails rules rule) {label : FleetLabel E C}
    (hkeeps : ∀ worker own, label = .take worker own → own.KeepsRules handler_name rules)
    (hstep : self.step backend label = some next) :
    next.Metered backend store handler_name rules counted within_limit := by
  cases label with
  | operate call =>
    cases hstep
    refine ⟨?_, ?_, h.serves, h.turned_away⟩
    · rw [settle_concat, ← h.settled]
    · rw [outputs_concat]
      exact h.recorded.trans (List.sublist_append_left _ _)
  | take worker own =>
    obtain ⟨world, hworld, rfl⟩ := step_take hstep
    exact ⟨h.settled, h.recorded, h.serves_step (hkeeps worker own rfl) hworld,
      fun hit hhit hcounted hover => h.turned_away_step hworld hhit hcounted hover⟩
  | consult worker index env =>
    obtain ⟨task, evaluation, route_limit, request_key, position, found, result, world, htask, hphase, hnext,
      hresult, hworld, rfl⟩ := step_consult hstep
    have hkept : (Label.resume index (.of_result .hit result)).KeepsRules handler_name rules := trivial
    refine ⟨?_, ?_, h.serves_step hkept hworld, ?_⟩
    · rw [settle_concat, ← h.settled]
    · rw [outputs_concat, List.map_append, ← h.settled]
      exact h.recorded.append (List.Sublist.refl _)
    · intro hit hhit hcounted hover
      rcases List.mem_append.mp hhit with hbefore | hlast
      · exact h.turned_away_step hworld hbefore hcounted hover
      · cases List.mem_singleton.mp hlast
        obtain ⟨hname, rfl⟩ := htells.own _ _ _ _ _ _ _ hcounted
        have hserves := h.serves worker
        have hcompares := hserves.evaluates task (List.mem_of_getElem? htask) evaluation route_limit hphase hname
        have hfound : found = rule := Option.some.inj ((hcompares.next_rule hnext).symm.trans hrule)
        subst hfound
        have hexceeds : ∀ reported, result = .ok reported → found.count < reported.hit_count :=
          fun reported hok => htells.exceeds _ reported hover (hok ▸ hresult)
        obtain ⟨later, hlater, hturned⟩ :=
          hserves.turnedAway_of_hit htask hphase hname hnext hprevails hexceeds hworld
        have hupdated : Function.update self.worlds worker world worker = world := Function.update_self _ _ _
        exact ⟨later, (congrArg (fun moved : World => moved.tasks[index]?) hupdated).trans hlater, hturned⟩

/-- Whether a request of a worker called the application. -/
def reached_app (self : Fleet S C O) (worker index : Nat) : Bool :=
  (self.worlds worker).tasks[index]?.any (fun task => 0 < task.invocations)

/-- The requests that called the application and had a hit among those counted. -/
def passed (self : Fleet S C O) (counted : O → Bool) : List (Nat × Nat) :=
  ((self.ledger.filter (fun hit => counted hit.outcome && self.reached_app hit.worker hit.index)).map
    (fun hit => (hit.worker, hit.index))).dedup

/-- However the requests of all workers interleave, one that calls the
    application had its hit within the limit. So no more requests pass than the
    storage admitted hits. -/
theorem passed_le {limiters : Nat → Limiter} {labels : List (FleetLabel E C)} {fleet : Fleet S C O}
    (hrun : execute (step backend) (init store limiters) labels = some fleet)
    (htells : Tells backend handler_name rule_index rule counted within_limit)
    (hpolicy : ∀ worker, (limiters worker).get_rules handler_name = rules)
    (hkeeps : ∀ worker own, .take worker own ∈ labels → own.KeepsRules handler_name rules)
    (hrule : rules[rule_index]? = some rule) (hprevails : Prevails rules rule) :
    (fleet.passed counted).length ≤
      (outputs backend.perform store fleet.calls).countP
      (fun outcome => counted outcome && within_limit outcome) := by
  have hmetered : fleet.Metered backend store handler_name rules counted within_limit := by
    refine execute_invariant_along (step backend) (init_metered hpolicy) ?_ hrun
    intro before label rest state next hsplit _ h hnext
    refine h.step htells hrule hprevails (fun worker own hown => hkeeps worker own ?_) hnext
    rw [hsplit, ← hown]
    simp
  have hwithin : ∀ hit ∈ fleet.ledger,
      (counted hit.outcome && fleet.reached_app hit.worker hit.index) = true →
      (counted hit.outcome && within_limit hit.outcome) = true := by
    intro hit hhit hpassed
    obtain ⟨hcounted, hreached⟩ := (Bool.and_eq_true _ _).mp hpassed
    rw [hcounted, Bool.true_and]
    by_contra hover
    obtain ⟨task, htask, hturned⟩ := hmetered.turned_away hit hhit hcounted (Bool.not_eq_true _ ▸ hover)
    simp [reached_app, htask, Task.invocations_eq_zero hturned.uninvoked] at hreached
  calc (fleet.passed counted).length
      ≤ fleet.ledger.countP (fun hit => counted hit.outcome && fleet.reached_app hit.worker hit.index) := by
        refine (List.dedup_sublist _).length_le.trans ?_
        rw [List.length_map, List.countP_eq_length_filter]
    _ ≤ fleet.ledger.countP (fun hit => counted hit.outcome && within_limit hit.outcome) :=
        List.countP_mono_left hwithin
    _ = (fleet.ledger.map RequestHit.outcome).countP (fun outcome => counted outcome && within_limit outcome) := by
        rw [List.countP_map]
        rfl
    _ ≤ _ := hmetered.recorded.countP_le

end Metering

end Fleet

end response_bandwidth_limiter.middleware

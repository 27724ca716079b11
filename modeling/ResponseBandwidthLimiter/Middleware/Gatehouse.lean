import ResponseBandwidthLimiter.Backends.Manager.SharedControls
import ResponseBandwidthLimiter.Middleware.Verdicts

open collections
open response_bandwidth_limiter.base response_bandwidth_limiter.models response_bandwidth_limiter.policy
open response_bandwidth_limiter.limiter response_bandwidth_limiter.shutdown response_bandwidth_limiter.ip_manager

namespace response_bandwidth_limiter.middleware

/-- The storages of some processes with the IP managers over them: the clock that
    a call reads in its environment, and what the call does. -/
structure ControlDesk (S E V : Type) where
  now : E → ℚ
  serve : S → Nat → E → memory.Event V → Except PyError (Reply V) × S

/-- Middlewares with the storages of their controls and counters, and the outcomes
    of all calls on these. -/
structure Gatehouse (S V : Type) where
  store : S
  worlds : Nat → World
  outcomes : List (memory.Outcome V)

/-- A step of the gatehouse: someone calls a storage or an IP manager, a storage
    answers the request that awaits it, or a middleware takes a step of its own. -/
inductive GatehouseLabel (E V : Type) where
  | operate (worker : Nat) (env : E) (event : memory.Event V)
  | consult (worker index : Nat) (env : E)
  | take (worker : Nat) (label : Label)

/-- The storage call that a request awaits. -/
def Task.awaited_call (V : Type) (task : Task) : Option (memory.Event V) :=
  match task.phase, task.request.client_ip with
  | .checking_blocked, some client_ip => some (.ip (.is_blocked client_ip))
  | .checking_allowed, some client_ip => some (.ip (.is_allowed client_ip))
  | .evaluating evaluation _, _ =>
    match evaluation.next with
    | .record_hit request_key rule_index rule =>
      some (.storage (.record_hit request_key evaluation.handler_name rule_index rule.window_seconds
        (some (rule.count + 1))))
    | _ => none
  | _, _ => none

/-- How a call of a storage comes back to the request that awaits it. -/
def Answer.of_reply {V : Type} : Except PyError (Reply V) → Option Answer
  | .ok (.answer present) => some (.found present)
  | .ok (.hit result) => some (.hit result)
  | .ok _ => none
  | .error error => some (.of_result .found (.error error))

namespace Gatehouse

variable {S E V : Type}

def init (store : S) (limiters : Nat → Limiter) : Gatehouse S V := ⟨store, fun worker => .init (limiters worker), []⟩

def step (desk : ControlDesk S E V) (self : Gatehouse S V) : GatehouseLabel E V → Option (Gatehouse S V)
  | .operate worker env event =>
    let (result, store) := desk.serve self.store worker env event
    some { self with store, outcomes := self.outcomes ++ [⟨⟨desk.now env, event⟩, result⟩] }
  | .consult worker index env => do
    let task ← (self.worlds worker).tasks[index]?
    let event ← task.awaited_call V
    let (result, store) := desk.serve self.store worker env event
    let answer ← Answer.of_reply result
    let world ← (self.worlds worker).step (.resume index answer)
    return {
      store
      worlds := Function.update self.worlds worker world
      outcomes := self.outcomes ++ [⟨⟨desk.now env, event⟩, result⟩] }
  | .take worker label =>
    if label.admissible (self.worlds worker) then
      ((self.worlds worker).step label).map
        (fun world => { self with worlds := Function.update self.worlds worker world })
    else none

variable {desk : ControlDesk S E V}

theorem step_consult {self next : Gatehouse S V} {worker index : Nat} {env : E}
    (hstep : self.step desk (.consult worker index env) = some next) :
    ∃ task event answer world, (self.worlds worker).tasks[index]? = some task ∧
      task.awaited_call V = some event ∧ Answer.of_reply (desk.serve self.store worker env event).1 = some answer ∧
      (self.worlds worker).step (.resume index answer) = some world ∧
      next = ⟨(desk.serve self.store worker env event).2, Function.update self.worlds worker world,
        self.outcomes ++ [⟨⟨desk.now env, event⟩, (desk.serve self.store worker env event).1⟩]⟩ := by
  simp only [step, Option.bind_eq_bind, Option.bind_eq_some_iff, Option.pure_def, Option.some.injEq] at hstep
  obtain ⟨task, htask, event, hevent, answer, hanswer, world, hworld, rfl⟩ := hstep
  exact ⟨task, event, answer, world, htask, hevent, hanswer, hworld, rfl⟩

theorem step_take {self next : Gatehouse S V} {worker : Nat} {label : Label}
    (hstep : self.step desk (.take worker label) = some next) :
    ∃ world, (self.worlds worker).step label = some world ∧
      next = { self with worlds := Function.update self.worlds worker world } := by
  simp only [step] at hstep
  split at hstep
  · obtain ⟨world, hworld, rfl⟩ := Option.map_eq_some_iff.mp hstep
    exact ⟨world, hworld, rfl⟩
  · cases hstep

/-- What one step does: it makes a call, or not, and moves one world, or none. -/
theorem step_cases {self next : Gatehouse S V} {label : GatehouseLabel E V}
    (hstep : self.step desk label = some next) :
    ((∃ worker env event, (∀ operation, event = .storage operation →
          label = .operate worker env event ∨ ∃ request_key handler_name rule_index window_seconds max_hits,
            operation = .record_hit request_key handler_name rule_index window_seconds max_hits) ∧
        next.store = (desk.serve self.store worker env event).2 ∧
        next.outcomes = self.outcomes ++ [⟨⟨desk.now env, event⟩, (desk.serve self.store worker env event).1⟩]) ∨
      next.store = self.store ∧ next.outcomes = self.outcomes) ∧
    (next.worlds = self.worlds ∨ ∃ worker label world, (self.worlds worker).step label = some world ∧
      next.worlds = Function.update self.worlds worker world) := by
  cases label with
  | operate worker env event =>
    cases hstep
    exact ⟨Or.inl ⟨worker, env, event, fun _ _ => Or.inl rfl, rfl, rfl⟩, Or.inl rfl⟩
  | consult worker index env =>
    obtain ⟨task, event, answer, world, -, hevent, -, hworld, rfl⟩ := step_consult hstep
    refine ⟨Or.inl ⟨worker, env, event, fun operation hoperation => Or.inr ?_, rfl, rfl⟩,
      Or.inr ⟨worker, _, world, hworld, rfl⟩⟩
    subst hoperation
    unfold Task.awaited_call at hevent
    split at hevent
    · cases hevent
    · cases hevent
    · split at hevent
      · cases hevent
        exact ⟨_, _, _, _, _, rfl⟩
      · cases hevent
    · cases hevent
  | take worker label =>
    obtain ⟨world, hworld, rfl⟩ := step_take hstep
    exact ⟨Or.inr ⟨rfl, rfl⟩, Or.inr ⟨worker, label, world, hworld, rfl⟩⟩

section Runs

variable {self next : Gatehouse S V}

/-- Calls on the storages themselves spare the controls. -/
def Spares (spares : Operation V → Prop) (label : GatehouseLabel E V) : Prop :=
  ∀ worker env operation, label = .operate worker env (.storage operation) → spares operation

/-- The calls so far, at clock readings that never went back. -/
def InOrder (house : Gatehouse S V) : Prop :=
  house.outcomes.Pairwise (fun first second => first.call.now ≤ second.call.now)

structure Kept (valid : S → List (memory.Outcome V) → Prop) (house : Gatehouse S V) : Prop where
  valid : valid house.store house.outcomes
  reads : ∀ worker, (house.worlds worker).Reads

theorem InOrder.before (h : next.InOrder) {label : GatehouseLabel E V} (hstep : self.step desk label = some next) :
    self.InOrder := by
  rcases (step_cases hstep).1 with ⟨worker, env, event, -, -, houtcomes⟩ | ⟨-, houtcomes⟩
  · rw [InOrder, houtcomes] at h
    exact (List.pairwise_append.mp h).1
  · rw [InOrder, houtcomes] at h
    exact h

/-- What no step of a request changes stays true of it in every run. -/
theorem run_keeps {kept : Task → Prop} {worker index : Nat} {task : Task}
    (htask : (self.worlds worker).tasks[index]? = some task) (h : kept task)
    (hresume : ∀ {self : Frame} {limiter answer next}, kept self.task → self.resume limiter answer = some next →
      kept next.task)
    (hrebind : ∀ {task : Task} {extensions}, kept task → kept { task with extensions })
    {labels : List (GatehouseLabel E V)} (hrun : execute (step desk) self labels = some next) :
    ∃ later, (next.worlds worker).tasks[index]? = some later ∧ kept later := by
  induction labels generalizing self task with
  | nil =>
    cases hrun
    exact ⟨task, htask, h⟩
  | cons label rest ih =>
    obtain ⟨middle, hstep, hrest⟩ := Option.bind_eq_some_iff.mp hrun
    rcases (step_cases hstep).2 with hworlds | ⟨other, label, world, hworld, hworlds⟩
    · exact ih (by rw [hworlds]; exact htask) h hrest
    · by_cases hsame : worker = other
      · subst hsame
        obtain ⟨later, hlater, hkept⟩ := World.step_keeps htask h hresume hrebind hworld
        refine ih ?_ hkept hrest
        rw [hworlds, Function.update_self]
        exact hlater
      · refine ih ?_ h hrest
        rw [hworlds, Function.update_of_ne hsame]
        exact htask

/-- Where a request has got to, it stays if no step of it leads away. -/
theorem kept_to_end {kept : Task → Prop} {worker index : Nat} {final_task : Task}
    (hmoved : ∃ moved, (self.worlds worker).tasks[index]? = some moved ∧ kept moved)
    (hresume : ∀ {self : Frame} {limiter answer next}, kept self.task → self.resume limiter answer = some next →
      kept next.task)
    (hrebind : ∀ {task : Task} {extensions}, kept task → kept { task with extensions })
    {labels : List (GatehouseLabel E V)} (hrun : execute (step desk) self labels = some next)
    (hfinal : (next.worlds worker).tasks[index]? = some final_task) : kept final_task := by
  obtain ⟨moved, hmoved, h⟩ := hmoved
  obtain ⟨last, hlast, hlasts⟩ := run_keeps hmoved h hresume hrebind hrun
  cases hlast.symm.trans hfinal
  exact hlasts

theorem InOrder.before_run (h : next.InOrder) {labels : List (GatehouseLabel E V)}
    (hrun : execute (step desk) self labels = some next) : self.InOrder := by
  induction labels generalizing self with
  | nil =>
    cases hrun
    exact h
  | cons label rest ih =>
    obtain ⟨middle, hstep, hrest⟩ := Option.bind_eq_some_iff.mp hrun
    exact (ih hrest).before hstep

end Runs

end Gatehouse

/-- A desk whose lookups tell which controls were set last, as long as calls on
    the storages themselves spare the controls. What is valid of its storages is
    relative to the outcomes so far. -/
structure ControlDesk.Exact {S E V Address : Type} [PyValue V] (desk : ControlDesk S E V) (lib : IpLibrary Address)
    (spares : Operation V → Prop) (valid : S → List (memory.Outcome V) → Prop) : Prop where
  spares_hit : ∀ request_key handler_name rule_index window_seconds max_hits,
    spares (.record_hit request_key handler_name rule_index window_seconds max_hits)
  serve : ∀ {store outcomes} worker env {event}, valid store outcomes →
    (∀ outcome ∈ outcomes, outcome.call.now ≤ desk.now env) →
    (∀ operation, event = .storage operation → spares operation) →
    valid (desk.serve store worker env event).2
      (outcomes ++ [⟨⟨desk.now env, event⟩, (desk.serve store worker env event).1⟩])
  asks : ∀ {store outcomes} worker env {operation control ip address}, valid store outcomes →
    (∀ outcome ∈ outcomes, outcome.call.now ≤ desk.now env) → operation.asks = some (control, ip) →
    lib.ip_address ip = some address →
    ∃ holds, (desk.serve store worker env (.ip operation)).1 = .ok (.answer holds) ∧
      (holds = true ↔ memory.LastSet lib control address (desk.now env) outcomes)

namespace Gatehouse

variable {S E V Address : Type} [PyValue V] {desk : ControlDesk S E V} {lib : IpLibrary Address}
  {spares : Operation V → Prop} {valid : S → List (memory.Outcome V) → Prop} {self next : Gatehouse S V}

/-- The step lemma. -/
theorem Kept.step (hexact : desk.Exact lib spares valid) (h : Kept valid self) {label : GatehouseLabel E V}
    (hspares : Spares spares label) (hstep : self.step desk label = some next) (horder : next.InOrder) :
    Kept valid next := by
  obtain ⟨hstore, hworlds⟩ := step_cases hstep
  constructor
  · rcases hstore with ⟨worker, env, event, hevent, hstore, houtcomes⟩ | ⟨hstore, houtcomes⟩
    · rw [InOrder, houtcomes] at horder
      rw [hstore, houtcomes]
      obtain ⟨-, -, hlast⟩ := List.pairwise_append.mp horder
      refine hexact.serve worker env h.valid (fun outcome houtcome => hlast outcome houtcome _ List.mem_cons_self) ?_
      rintro operation rfl
      rcases hevent operation rfl with hlabel | ⟨_, _, _, _, _, rfl⟩
      · exact hspares worker env operation hlabel
      · exact hexact.spares_hit _ _ _ _ _
    · rw [hstore, houtcomes]
      exact h.valid
  · rcases hworlds with hworlds | ⟨worker, label, world, hworld, hworlds⟩
    · rw [hworlds]
      exact h.reads
    · rw [hworlds]
      intro other
      by_cases hsame : other = worker
      · subst hsame
        rw [Function.update_self]
        exact (h.reads other).step hworld
      · rw [Function.update_of_ne hsame]
        exact h.reads other

/-- The run lemma. -/
theorem kept_of_run (hexact : desk.Exact lib spares valid) {store : S} (hvalid : valid store [])
    {limiters : Nat → Limiter} {labels : List (GatehouseLabel E V)} {house : Gatehouse S V}
    (hspares : ∀ label ∈ labels, Spares spares label)
    (hrun : execute (step desk) (init store limiters) labels = some house) (horder : house.InOrder) :
    Kept valid house := by
  induction labels using List.reverseRecOn generalizing house with
  | nil =>
    cases hrun
    exact ⟨hvalid, fun _ _ htask => absurd htask List.not_mem_nil⟩
  | append_singleton earlier label ih =>
    obtain ⟨middle, hearlier, hstep⟩ := (execute_concat (step desk)).mp hrun
    have hmiddle := ih (fun other hother => hspares other (List.mem_append_left _ hother)) hearlier
      (horder.before hstep)
    exact hmiddle.step hexact (hspares label (by simp)) hstep horder

/-- What becomes of a request whose lookup is answered, when the outcomes before
    tell which controls of its address were set last. -/
structure Judged (lib : IpLibrary Address) (address : Address) (now : ℚ) (outcomes : List (memory.Outcome V))
    (before after : Task) : Prop where
  blocked : before.phase = .checking_blocked →
    (build_blocked_ip_response ∈ after.responses ↔ memory.LastSet lib .block address now outcomes)
  refused : before.phase = .checking_blocked → memory.LastSet lib .block address now outcomes →
    after.invocations = 0 ∧ after.hits = []
  exempt : before.phase = .checking_allowed → memory.LastSet lib .allow address now outcomes →
    after.hits = [] ∧ ∀ response ∈ after.responses,
      response = build_shutdown_response ∨ response = build_backend_unavailable_response

section Lookups

variable {world after : World} {index : Nat} {task : Task}

/-- A lookup that finds the address blocked. -/
theorem blocked_of_found (hlog : task.log = []) (hphase : task.phase = .checking_blocked)
    (htask : world.tasks[index]? = some task) (hstep : world.step (.resume index (.found true)) = some after) :
    ∃ later, after.tasks[index]? = some later ∧ later.Blocked := by
  obtain ⟨found, frame, hfound, hframe, rfl⟩ := World.step_resume hstep
  cases htask.symm.trans hfound
  refine ⟨frame.task, List.getElem?_set_self (List.getElem?_eq_some_iff.mp htask).1, ?_⟩
  simp only [Frame.resume, hphase, Option.some.injEq] at hframe
  have hrefused : (Frame.mk world.coordinator task).task.Refused := by
    refine ⟨?_, ?_, ?_, ?_⟩ <;> simp [hlog, hphase]
  subst hframe
  refine ⟨Frame.respond_atGate hrefused (Or.inl rfl) (Or.inl rfl), Phase.noConfusion, ?_⟩
  have hresponses := Frame.note_responses (Frame.mk world.coordinator task) (.responding build_blocked_ip_response)
  exact hresponses.symm ▸ List.mem_append_right _ (by simp [Event.response])

/-- A lookup that finds the address not blocked. -/
theorem unblocked_of_not_found (hlog : task.log = []) (hphase : task.phase = .checking_blocked)
    (htask : world.tasks[index]? = some task) (hstep : world.step (.resume index (.found false)) = some after) :
    ∃ later, after.tasks[index]? = some later ∧
      (build_blocked_ip_response ∉ later.responses ∧ later.phase ≠ .checking_blocked) := by
  obtain ⟨found, frame, hfound, hframe, rfl⟩ := World.step_resume hstep
  cases htask.symm.trans hfound
  refine ⟨frame.task, List.getElem?_set_self (List.getElem?_eq_some_iff.mp htask).1, ?_⟩
  simp only [Frame.resume, hphase, Option.some.injEq] at hframe
  subst hframe
  exact ⟨by simp [Frame.await, Task.responses, hlog], Phase.noConfusion⟩

/-- A lookup that finds the address allowed. -/
theorem exempt_of_found (hlog : task.log = []) (hphase : task.phase = .checking_allowed)
    (htask : world.tasks[index]? = some task) (hstep : world.step (.resume index (.found true)) = some after) :
    ∃ later, after.tasks[index]? = some later ∧ later.Exempt := by
  obtain ⟨found, frame, hfound, hframe, rfl⟩ := World.step_resume hstep
  cases htask.symm.trans hfound
  refine ⟨frame.task, List.getElem?_set_self (List.getElem?_eq_some_iff.mp htask).1, ?_⟩
  simp only [Frame.resume, hphase, Option.some.injEq] at hframe
  subst hframe
  apply Frame.Uncounted.proceed
  constructor <;> simp [Task.hits, Task.responses, hlog]

end Lookups

/-- A lookup of a request comes back with what was set last. -/
theorem lookup_answered (hexact : desk.Exact lib spares valid) (h : Kept valid self) {worker index : Nat} {env : E}
    (hstep : self.step desk (.consult worker index env) = some next) (horder : next.InOrder) {task : Task}
    (htask : (self.worlds worker).tasks[index]? = some task) {operation : IpOperation} {control : Control}
    {client_ip : String} {address : Address} (hawaits : task.awaited_call V = some (.ip operation))
    (hasks : operation.asks = some (control, client_ip)) (haddress : lib.ip_address client_ip = some address) :
    ∃ holds, (self.worlds worker).step (.resume index (.found holds)) = some (next.worlds worker) ∧
      (holds = true ↔ memory.LastSet lib control address (desk.now env) self.outcomes) := by
  obtain ⟨found, event, answer, world, hfound, hevent, hanswer, hworld, rfl⟩ := step_consult hstep
  cases htask.symm.trans hfound
  cases hawaits.symm.trans hevent
  have hbefore : ∀ outcome ∈ self.outcomes, outcome.call.now ≤ desk.now env := fun outcome houtcome =>
    (List.pairwise_append.mp horder).2.2 outcome houtcome _ List.mem_cons_self
  obtain ⟨holds, hreply, hholds⟩ := hexact.asks worker env h.valid hbefore hasks haddress
  rw [hreply] at hanswer
  cases hanswer
  refine ⟨holds, hworld.trans (congrArg some ?_), hholds⟩
  exact (Function.update_self worker world self.worlds).symm

section Answered

variable {house final : Gatehouse S V} {later : List (GatehouseLabel E V)} {worker index : Nat} {env : E}
  {task final_task : Task} {address : Address}
  (hexact : desk.Exact lib spares valid) (hkept : Kept valid house)
  (hstep : house.step desk (.consult worker index env) = some next) (horder : next.InOrder)
  (htask : (house.worlds worker).tasks[index]? = some task)
  (haddress : Service.FromAddress lib address task.request)
  (hrun : execute (step desk) next later = some final)
  (hfinal : (final.worlds worker).tasks[index]? = some final_task)

include hexact hkept hstep horder htask haddress hrun hfinal

/-- After the first lookup a request is told that its address is blocked, or it
    never is. -/
theorem blocked_or_unanswered (hphase : task.phase = .checking_blocked) :
    (memory.LastSet lib .block address (desk.now env) house.outcomes ∧ final_task.Blocked) ∨
      (¬ memory.LastSet lib .block address (desk.now env) house.outcomes ∧
        build_blocked_ip_response ∉ final_task.responses) := by
  obtain ⟨client_ip, hclient, hip⟩ := haddress
  have hawaits : task.awaited_call V = some (.ip (.is_blocked client_ip)) := by
    simp only [Task.awaited_call, hphase, hclient]
  obtain ⟨holds, hworld, hholds⟩ := lookup_answered hexact hkept hstep horder htask hawaits rfl hip
  have hlog : task.log = [] :=
    (hkept.reads worker).log_of_checking (List.mem_of_getElem? htask) (by rw [hphase]; rfl)
  cases holds with
  | true =>
    refine Or.inl ⟨hholds.mp rfl, ?_⟩
    exact kept_to_end (blocked_of_found hlog hphase htask hworld)
      (fun hblocked hresume => Frame.resume_blocked hblocked hresume) (fun hblocked => hblocked.rebind) hrun hfinal
  | false =>
    refine Or.inr ⟨fun hset => absurd (hholds.mpr hset) Bool.false_ne_true, ?_⟩
    refine (kept_to_end (unblocked_of_not_found hlog hphase htask hworld) ?_ (fun h => h) hrun hfinal).1
    rintro self limiter answer next ⟨hresponses, hpast⟩ hresume
    have hunblocked := Frame.Unanswered.resume hresponses hpast hresume
    refine ⟨hunblocked.responses, fun hback => ?_⟩
    have hchecking := hunblocked.phase
    rw [hback] at hchecking
    cases hchecking

/-- After the second lookup a request whose address is allowed stays exempt. -/
theorem exempt_of_allowed (hphase : task.phase = .checking_allowed)
    (hset : memory.LastSet lib .allow address (desk.now env) house.outcomes) : final_task.Exempt := by
  obtain ⟨client_ip, hclient, hip⟩ := haddress
  have hawaits : task.awaited_call V = some (.ip (.is_allowed client_ip)) := by
    simp only [Task.awaited_call, hphase, hclient]
  obtain ⟨holds, hworld, hholds⟩ := lookup_answered hexact hkept hstep horder htask hawaits rfl hip
  have hlog : task.log = [] :=
    (hkept.reads worker).log_of_checking (List.mem_of_getElem? htask) (by rw [hphase]; rfl)
  cases hholds.mpr hset
  refine kept_to_end (exempt_of_found hlog hphase htask hworld)
    (fun hexempt hresume => Frame.resume_exempt hexempt hresume) ?_ hrun hfinal
  exact fun hexempt => ⟨hexempt.hits, hexempt.responses, hexempt.phase⟩

end Answered

/-- The gate is exact wherever the lookups are. In every run of a gatehouse, a
    request is answered that its address is blocked exactly when, at its lookup,
    the last completed block or unblock of an equal address was a block that has
    not run out, and then it is neither counted nor passed on; and a request whose
    address was found allowed is never counted or rejected. -/
theorem judged_of_run (hexact : desk.Exact lib spares valid) {store : S} (hvalid : valid store [])
    {limiters : Nat → Limiter} {earlier later : List (GatehouseLabel E V)} {worker index : Nat} {env : E}
    {house final : Gatehouse S V} {task final_task : Task} {address : Address}
    (hspares : ∀ label ∈ earlier, Spares spares label)
    (hearlier : execute (step desk) (init store limiters) earlier = some house)
    (hrun : execute (step desk) (init store limiters) (earlier ++ .consult worker index env :: later) = some final)
    (horder : final.InOrder) (htask : (house.worlds worker).tasks[index]? = some task)
    (haddress : Service.FromAddress lib address task.request)
    (hfinal : (final.worlds worker).tasks[index]? = some final_task) :
    Judged lib address (desk.now env) house.outcomes task final_task := by
  rw [execute_append, hearlier, Option.bind_some, execute_cons, Option.bind_eq_some_iff] at hrun
  obtain ⟨next, hstep, hlater⟩ := hrun
  have hordered : next.InOrder := horder.before_run hlater
  have hkept : Kept valid house := kept_of_run hexact hvalid hspares hearlier (hordered.before hstep)
  have hblock := blocked_or_unanswered hexact hkept hstep hordered htask haddress hlater hfinal
  constructor
  · intro hphase
    rcases hblock hphase with ⟨hset, hblocked⟩ | ⟨hset, hresponses⟩
    · exact ⟨fun _ => hset, fun _ => hblocked.responses⟩
    · exact ⟨fun hmem => absurd hmem hresponses, fun hlast => absurd hlast hset⟩
  · intro hphase hset
    rcases hblock hphase with ⟨-, hblocked⟩ | ⟨hnot, -⟩
    · exact ⟨Task.invocations_eq_zero hblocked.at_gate.refused.uninvoked, hblocked.at_gate.refused.hits⟩
    · exact absurd hset hnot
  · intro hphase hset
    have hexempt := exempt_of_allowed hexact hkept hstep hordered htask haddress hlater hfinal hphase hset
    exact ⟨hexempt.hits, hexempt.responses⟩

end Gatehouse

/-- A call after all outcomes is after all calls. -/
theorem ordered_concat {C V : Type} {clock : C → ℚ} {calls : List C} {outcomes : List (memory.Outcome V)}
    (hclock : outcomes.map (fun outcome => outcome.call.now) = calls.map clock)
    (hmono : calls.Pairwise (fun first second => clock first ≤ clock second)) {last : C}
    (hbefore : ∀ outcome ∈ outcomes, outcome.call.now ≤ clock last) :
    (calls ++ [last]).Pairwise (fun first second => clock first ≤ clock second) := by
  refine List.pairwise_append.mpr ⟨hmono, List.pairwise_singleton _ _, ?_⟩
  intro call hcall other hother
  obtain rfl := List.mem_singleton.mp hother
  have hnow : clock call ∈ outcomes.map (fun outcome => outcome.call.now) := by
    rw [hclock]
    exact List.mem_map_of_mem hcall
  obtain ⟨outcome, houtcome, hsame⟩ := List.mem_map.mp hnow
  exact hsame ▸ hbefore outcome houtcome

section Desks

variable {Address V U : Type} [PyValue V] [manager.PyFloat U] (lib : IpLibrary Address)

/-- An `InMemoryStorage`, which the middlewares of its process share. -/
def memory_desk : ControlDesk (memory.InMemoryStorage V) ℚ V where
  now := id
  serve storage _ now event := storage.perform lib ⟨now, event⟩

/-- A dictionary of a manager with a `ManagerStorage` in each process, read at
    `time.time` and the storages' clock. -/
def manager_desk : ControlDesk (manager.SharedStorage U) (ℚ × ℚ) U where
  now := Prod.snd
  serve shared process clocks event := shared.perform lib ⟨process, clocks.1, clocks.2, event⟩

/-- The storage after some calls on a fresh one, with their outcomes. -/
def memory_valid (max_keys max_counters : ℕ+) (storage : memory.InMemoryStorage V)
    (outcomes : List (memory.Outcome V)) : Prop :=
  ∃ calls : List (memory.Call V),
    storage = settle (memory.InMemoryStorage.advance lib) (.fresh max_keys max_counters) calls ∧
    outcomes = memory.InMemoryStorage.run lib (.fresh max_keys max_counters) calls ∧
    calls.Pairwise (fun first second => first.now ≤ second.now) ∧ ∀ call ∈ calls, call.SparesControls

/-- The dictionary after some calls in any processes, with their outcomes. -/
def manager_valid (shared : manager.SharedStorage U) (outcomes : List (memory.Outcome U)) : Prop :=
  ∃ calls : List (manager.ProcessCall U),
    shared = settle (manager.SharedStorage.advance lib) .init calls ∧
    outcomes = manager.SharedStorage.run lib calls ∧
    calls.Pairwise (fun first second => first.now ≤ second.now) ∧ ∀ call ∈ calls, manager.SparesControls call.event

theorem memory_run_now (self : memory.InMemoryStorage V) (calls : List (memory.Call V)) :
    (self.run lib calls).map (fun outcome => outcome.call.now) = calls.map memory.Call.now := by
  unfold memory.InMemoryStorage.run
  induction calls generalizing self with
  | nil => rfl
  | cons call rest ih => exact congrArg (List.cons call.now) (ih _)

theorem manager_run_now (self : manager.SharedStorage U) (calls : List (manager.ProcessCall U)) :
    (outputs (manager.SharedStorage.advance lib) self calls).map (fun outcome => outcome.call.now) =
      calls.map manager.ProcessCall.now := by
  induction calls generalizing self with
  | nil => rfl
  | cons call rest ih => exact congrArg (List.cons call.now) (ih _)

/-- A call on the storage itself names no control. -/
def SparesControls (operation : Operation V) : Prop :=
  ∀ key ∈ operation.key, ¬ memory.InMemoryStorage.is_control_key key

/-- The storage of a process is exact while calls on it name no control. -/
theorem memory_desk_exact (max_keys max_counters : ℕ+) :
    (memory_desk lib).Exact lib SparesControls (memory_valid (V := V) lib max_keys max_counters) where
  spares_hit _ _ _ _ _ _ hkey := absurd hkey (Option.not_mem_none _)
  serve := by
    rintro _ _ worker now event ⟨calls, rfl, rfl, hmono, hspared⟩ hbefore hspares
    refine ⟨calls ++ [⟨now, event⟩], ?_, ?_, ordered_concat (memory_run_now lib _ calls) hmono hbefore, ?_⟩
    · rw [settle_concat]
      rfl
    · rw [memory.InMemoryStorage.run, memory.InMemoryStorage.run, outputs_concat]
      rfl
    · refine List.forall_mem_append.mpr ⟨hspared, List.forall_mem_singleton.mpr ?_⟩
      exact fun operation hevent => hspares operation hevent
  asks := by
    rintro _ _ worker now operation control ip address ⟨calls, rfl, rfl, hmono, hspared⟩ hbefore hasks haddress
    let lookup : memory.Call V := ⟨now, .ip operation⟩
    have hordered : (calls ++ [lookup]).Pairwise (fun first second => first.now ≤ second.now) :=
      ordered_concat (memory_run_now lib _ calls) hmono hbefore
    have hspares : ∀ call ∈ calls ++ [lookup], call.SparesControls :=
      List.forall_mem_append.mpr ⟨hspared, List.forall_mem_singleton.mpr (fun _ hevent => by cases hevent)⟩
    obtain ⟨holds, hrun, hholds⟩ :=
      memory.InMemoryStorage.asks_exact max_keys max_counters hordered hspares rfl hasks haddress
    rw [memory.InMemoryStorage.run, outputs_getElem?] at hrun
    exact ⟨holds, congrArg memory.Outcome.result (Option.some.inj hrun), hholds⟩

/-- The storages of all processes are exact while calls on them name no control
    and no record of an expiry. -/
theorem manager_desk_exact :
    (manager_desk lib).Exact lib (fun operation : Operation U => manager.SparesControls (.storage operation))
      (manager_valid lib) where
  spares_hit _ _ _ _ _ := by
    rintro _ ⟨⟩ _ hkey
    exact absurd hkey (Option.not_mem_none _)
  serve := by
    rintro _ _ worker clocks event ⟨calls, rfl, rfl, hmono, hspared⟩ hbefore hspares
    let made : manager.ProcessCall U := ⟨worker, clocks.1, clocks.2, event⟩
    have hordered : (calls ++ [made]).Pairwise (fun first second => first.now ≤ second.now) :=
      ordered_concat (manager_run_now lib .init calls) hmono hbefore
    refine ⟨calls ++ [made], ?_, ?_, hordered, ?_⟩
    · rw [settle_concat]
      rfl
    · rw [manager.SharedStorage.run, manager.SharedStorage.run, outputs_concat]
      rfl
    · refine List.forall_mem_append.mpr ⟨hspared, List.forall_mem_singleton.mpr ?_⟩
      exact fun operation hevent => hspares operation hevent operation rfl
  asks := by
    rintro _ _ worker clocks operation control ip address ⟨calls, rfl, rfl, hmono, hspared⟩ hbefore hasks haddress
    let lookup : manager.ProcessCall U := ⟨worker, clocks.1, clocks.2, .ip operation⟩
    have hordered : (calls ++ [lookup]).Pairwise (fun first second => first.now ≤ second.now) :=
      ordered_concat (manager_run_now lib .init calls) hmono hbefore
    have hspares : ∀ call ∈ calls ++ [lookup], manager.SparesControls call.event :=
      List.forall_mem_append.mpr ⟨hspared, List.forall_mem_singleton.mpr (fun _ hevent => by cases hevent)⟩
    obtain ⟨holds, hrun, hholds⟩ := manager.SharedStorage.asks_exact hordered hspares rfl hasks haddress
    rw [manager.SharedStorage.run, outputs_getElem?] at hrun
    exact ⟨holds, congrArg memory.Outcome.result (Option.some.inj hrun), hholds⟩

variable {limiters : Nat → Limiter} {worker index : Nat} {task final_task : Task} {address : Address}

/-- A visitor is allowed before it comes. -/
def allowed_before : List (GatehouseLabel ℚ PlainValue) :=
  [.operate 0 0 (.ip (.allow_ip "192.0.2.1")), .take 0 (.arrive { Application.report_visit with client_ip := some "192.0.2.1" }),
    .consult 0 0 1]

def report_gate (labels : List (GatehouseLabel ℚ PlainValue)) :
    Option (Gatehouse (memory.InMemoryStorage PlainValue) PlainValue) :=
  execute (Gatehouse.step (memory_desk IpLibrary.documentation))
    (.init (.fresh 1 1) fun _ => { Limiter.init with route_policies := OrderedDict.empty.set "report" [.one_per_minute] })
    labels

/-- A visitor comes to one process after it was blocked in another, under another
    spelling. -/
def blocked_in_another : List (GatehouseLabel (ℚ × ℚ) manager.ClockedValue) :=
  [.operate 0 (60, 0) (.ip (.block_ip "2001:DB8::0:1" (some 2))),
    .take 1 (.arrive { Service.visit with client_ip := some "2001:db8::1" })]

def shared_gate (labels : List (GatehouseLabel (ℚ × ℚ) manager.ClockedValue)) :
    Option (Gatehouse (manager.SharedStorage manager.ClockedValue) manager.ClockedValue) :=
  execute (Gatehouse.step (manager_desk IpLibrary.documentation)) (.init .init fun _ => .init) labels

end Desks

end response_bandwidth_limiter.middleware

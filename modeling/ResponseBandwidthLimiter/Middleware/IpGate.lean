import ResponseBandwidthLimiter.Backends.Redis.Controls
import ResponseBandwidthLimiter.Middleware.Task

open collections
open response_bandwidth_limiter.base response_bandwidth_limiter.policy response_bandwidth_limiter.ip_manager
open response_bandwidth_limiter.redis response_bandwidth_limiter.limiter response_bandwidth_limiter.shutdown

namespace response_bandwidth_limiter.middleware

/-- How a call of the storage comes back to the request that awaits it. -/
def Answer.of_result {R : Type} (wrap : R → Answer) (result : Except PyError R) : Answer :=
  match result with
  | .ok value => wrap value
  | .error (.storage_unavailable_error _) => .raised .storage_unavailable_error
  | .error (.value_error _) => .raised .value_error
  | .error _ => .raised .exception

/-- A middleware whose limiter keeps its IP controls and counters in Redis. -/
structure Service (V : Type) where
  storage : RedisStorage V
  world : World

/-- A step of the service: someone uses the storage or the IP manager, the
    storage answers the request that awaits it, or the middleware takes a step
    of its own. -/
inductive ServiceLabel (V : Type) where
  | operate (operation : Operation V) (env : Environment)
  | manage (operation : IpOperation) (env : Environment)
  | consult (index : Nat) (env : Environment)
  | take (label : Label)

/-- The awaits of a storage call. -/
def Phase.on_storage : Phase → Bool
  | .checking_blocked => true
  | .checking_allowed => true
  | .evaluating _ _ => true
  | _ => false

/-- While it awaits the storage a request can only be cancelled. -/
def Label.admissible (world : World) (label : Label) : Bool :=
  match label with
  | .resume _ (.raised .cancelled_error) => true
  | .resume index _ => world.tasks[index]?.all (fun task => !task.phase.on_storage)
  | _ => true

theorem answer_of_admissible {world : World} {index : Nat} {answer : Answer} {task : Task}
    (hadmissible : (Label.resume index answer).admissible world) (htask : world.tasks[index]? = some task)
    (hstorage : task.phase.on_storage) : answer = .raised .cancelled_error := by
  unfold Label.admissible at hadmissible
  split at hadmissible
  · next heq => cases heq; rfl
  · next heq => cases heq; simp [htask, hstorage] at hadmissible
  · next hne => exact absurd rfl (hne index answer)

namespace Service

variable {Address V : Type} [PyValue V] (lib : Libraries V) (ips : IpLibrary Address) (numerals : Numerals)

/-- The storage call a request awaits, with its answer. -/
def call_storage (self : RedisStorage V) (env : Environment) (task : Task) : Option (Answer × RedisStorage V) :=
  match task.phase, task.request.client_ip with
  | .checking_blocked, some client_ip =>
    let (result, self) := is_blocked ips (RedisStorage.at_call lib env) self client_ip
    some (.of_result .found result, self)
  | .checking_allowed, some client_ip =>
    let (result, self) := is_allowed ips (RedisStorage.at_call lib env) self client_ip
    some (.of_result .found result, self)
  | .evaluating evaluation _, _ =>
    match evaluation.next with
    | .record_hit request_key rule_index rule =>
      let (result, self) := self.record_hit lib.hexdigest numerals env request_key evaluation.handler_name
        rule_index rule.window_seconds (some (rule.count + 1))
      some (.of_result .hit result, self)
    | _ => none
  | _, _ => none

def step (self : Service V) : ServiceLabel V → Option (Service V)
  | .operate operation env =>
    some { self with storage := (self.storage.operate lib numerals env operation).2 }
  | .manage operation env =>
    some { self with storage := (manage ips (RedisStorage.at_call lib env) self.storage operation).2 }
  | .consult index env => do
    let task ← self.world.tasks[index]?
    let (answer, storage) ← call_storage lib ips numerals self.storage env task
    let world ← self.world.step (.resume index answer)
    return ⟨storage, world⟩
  | .take label => if label.admissible self.world then (self.world.step label).map (⟨self.storage, ·⟩) else none

variable {lib ips numerals}

theorem step_consult {self next : Service V} {index : Nat} {env : Environment}
    (hstep : self.step lib ips numerals (.consult index env) = some next) :
    ∃ task answer storage world, self.world.tasks[index]? = some task ∧
      call_storage lib ips numerals self.storage env task = some (answer, storage) ∧
      self.world.step (.resume index answer) = some world ∧ next = ⟨storage, world⟩ := by
  simp only [step, Option.bind_eq_bind, Option.bind_eq_some_iff, Prod.exists, Option.pure_def,
    Option.some.injEq] at hstep
  obtain ⟨task, htask, answer, storage, hcall, world, hworld, rfl⟩ := hstep
  exact ⟨task, answer, storage, world, htask, hcall, hworld, rfl⟩

theorem step_take {self next : Service V} {label : Label}
    (hstep : self.step lib ips numerals (.take label) = some next) :
    label.admissible self.world ∧ self.world.step label = some next.world ∧ next.storage = self.storage := by
  simp only [step] at hstep
  split at hstep
  · next hadmissible =>
    obtain ⟨world, hworld, rfl⟩ := Option.map_eq_some_iff.mp hstep
    exact ⟨hadmissible, hworld, rfl⟩
  · cases hstep

end Service

/-- A request that the gate turned away, or that still waits at it: the app was
    not called, no hit was asked for, and what it was or will be answered is 403
    or 503, unless it is cancelled before. -/
structure Task.Refused (task : Task) : Prop where
  uninvoked : ∀ max_rate seen, .app_invoked max_rate seen ∉ task.log
  uncounted : ∀ request_key handler_name rule_index, .hit_requested request_key handler_name rule_index ∉ task.log
  refusals : ∀ response, .responding response ∈ task.log → response.status_code = 403 ∨ response.status_code = 503
  answered : ∀ outcome, task.phase = .finished outcome →
    (∃ response, .responding response ∈ task.log) ∨ outcome = .raised .cancelled_error

/-- Where a refused request may be. -/
structure Task.AtGate (task : Task) : Prop where
  refused : task.Refused
  phase : task.phase = .checking_blocked ∨
    ((task.phase = .responding .ip_check ∨ task.phase = .responding .plain) ∧
      ∃ response, .responding response ∈ task.log) ∨
    ∃ outcome, task.phase = .finished outcome

theorem Task.AtGate.not_in_app {task : Task} (h : task.AtGate) : ¬ task.in_app := by
  rcases h.phase with hphase | ⟨hphase | hphase, -⟩ | ⟨outcome, hphase⟩ <;> simp [Task.in_app, hphase]

namespace Frame

variable {self : Frame}

theorem respond_atGate (h : self.task.Refused) {response : Response}
    (hstatus : response.status_code = 403 ∨ response.status_code = 503) {context : Context}
    (hcontext : context = .ip_check ∨ context = .plain) : (self.respond response context).task.AtGate := by
  have hlog : (self.respond response context).task.log = self.task.log ++ [.responding response] := rfl
  refine ⟨⟨?_, ?_, ?_, nofun⟩, Or.inr (Or.inl ⟨?_, response, by simp [hlog]⟩)⟩
  · simpa [hlog] using h.uninvoked
  · simpa [hlog] using h.uncounted
  · intro other hother
    simp only [hlog, List.mem_append, List.mem_singleton, Event.responding.injEq] at hother
    obtain hother | rfl := hother
    · exact h.refusals other hother
    · exact hstatus
  · rcases hcontext with rfl | rfl
    · exact Or.inl rfl
    · exact Or.inr rfl

theorem finish_atGate (h : self.task.Refused) {outcome : Outcome}
    (hanswered : (∃ response, .responding response ∈ self.task.log) ∨ outcome = .raised .cancelled_error) :
    (self.finish outcome).task.AtGate where
  refused := ⟨h.uninvoked, h.uncounted, h.refusals, by rintro _ ⟨⟩; exact hanswered⟩
  phase := Or.inr (Or.inr ⟨outcome, rfl⟩)

theorem fail_closed_atGate (h : self.task.Refused) {failure : Failure}
    (hanswered : (∃ response, .responding response ∈ self.task.log) ∨
      failure = .storage_unavailable_error ∨ failure = .cancelled_error) :
    (self.fail_closed failure).task.AtGate := by
  unfold Frame.fail_closed
  split
  · exact respond_atGate h (Or.inr rfl) (Or.inr rfl)
  · next hother =>
    refine finish_atGate h (hanswered.imp_right fun hfailure => ?_)
    rw [hfailure.resolve_left hother]

/-- At the gate nothing but a block or an unavailable storage is an answer. -/
theorem resume_atGate (h : self.task.AtGate) {limiter : Limiter} {answer : Answer} {next : Frame}
    (hanswer : self.task.phase = .checking_blocked → answer = .found true ∨
      answer = .raised .storage_unavailable_error ∨ answer = .raised .cancelled_error)
    (hresume : self.resume limiter answer = some next) : next.task.AtGate := by
  rcases h.phase with hphase | ⟨hphase | hphase, hresponse⟩ | ⟨outcome, hphase⟩
  · rcases hanswer hphase with rfl | rfl | rfl
    · simp only [Frame.resume, hphase, Option.some.injEq] at hresume
      exact hresume ▸ respond_atGate h.refused (Or.inl rfl) (Or.inl rfl)
    · simp only [Frame.resume, Frame.handle, hphase, Option.some.injEq] at hresume
      exact hresume ▸ fail_closed_atGate h.refused (Or.inr (Or.inl rfl))
    · simp only [Frame.resume, Frame.handle, hphase, Option.some.injEq] at hresume
      exact hresume ▸ fail_closed_atGate h.refused (Or.inr (Or.inr rfl))
  · cases answer with
    | returned =>
      simp only [Frame.resume, hphase, Option.some.injEq] at hresume
      exact hresume ▸ finish_atGate h.refused (Or.inl hresponse)
    | raised failure =>
      simp only [Frame.resume, Frame.handle, hphase, Option.some.injEq] at hresume
      exact hresume ▸ fail_closed_atGate h.refused (Or.inl hresponse)
    | _ => simp [Frame.resume, hphase] at hresume
  · cases answer with
    | returned =>
      simp only [Frame.resume, hphase, Option.some.injEq] at hresume
      exact hresume ▸ finish_atGate h.refused (Or.inl hresponse)
    | raised failure =>
      simp only [Frame.resume, Frame.handle, hphase, Option.some.injEq] at hresume
      exact hresume ▸ finish_atGate h.refused (Or.inl hresponse)
    | _ => simp [Frame.resume, hphase] at hresume
  · cases answer <;> simp [Frame.resume, Frame.handle, hphase] at hresume

theorem start_atGate {request : Request} {client_ip : String} (hclient : request.client_ip = some client_ip)
    (limiter : Limiter) (coordinator : ShutdownCoordinator) : (start limiter coordinator request).task.AtGate := by
  unfold start
  rw [if_pos (by rw [hclient]; rfl)]
  exact ⟨⟨nofun, nofun, nofun, nofun⟩, Or.inl rfl⟩

end Frame

namespace Service

variable {Address V : Type} [PyValue V] {lib : Libraries V} {ips : IpLibrary Address} {numerals : Numerals}
  {address : Address}

/-- The client of a request has an address. -/
def FromAddress (ips : IpLibrary Address) (address : Address) (request : Request) : Prop :=
  ∃ client_ip, request.client_ip = some client_ip ∧ ips.ip_address client_ip = some address

/-- A step on other storage keys, that attempts no block or unblock of an
    address. -/
def ServiceLabel.LeavesBlock (ips : IpLibrary Address) (address : Address) : ServiceLabel V → Prop
  | .operate operation _ => ∀ key ∈ operation.key, Control.block.key ips address ≠ key
  | .manage operation _ => RedisStorage.LeavesBlock ips address operation
  | _ => True

/-- The block of an address stands, and every request of it that arrived since
    is at the gate. -/
structure Gated (lib : Libraries V) (ips : IpLibrary Address) (address : Address) (arrived : Nat)
    (service : Service V) : Prop where
  blocks : service.storage.Blocks lib ips address
  at_gate : ∀ index task, arrived ≤ index → service.world.tasks[index]? = some task →
    FromAddress ips address task.request → task.AtGate

theorem Gated.call_storage {arrived : Nat} {self : Service V} (h : self.Gated lib ips address arrived)
    {env : Environment} {task : Task} {answer : Answer} {storage : RedisStorage V}
    (hcall : call_storage lib ips numerals self.storage env task = some (answer, storage)) :
    storage.Blocks lib ips address := by
  unfold Service.call_storage at hcall
  split at hcall
  · next client_ip _ _ =>
    cases hcall
    exact h.blocks.has_control env BLOCK_BEGINNING client_ip
  · next client_ip _ _ =>
    cases hcall
    exact h.blocks.has_control env ALLOW_BEGINNING client_ip
  · next evaluation _ _ _ =>
    split at hcall
    · cases hcall
      exact h.blocks.keep (RedisStorage.record_hit_keeps _ _ _ _ _ _ _ _
        (RedisStorage.build_data_key_ne_counter_key _ _ _ _ _ _))
    · cases hcall
  · cases hcall

/-- The storage answers a request of a blocked address that it is blocked, or
    raises. -/
theorem Gated.answer {arrived : Nat} {self : Service V} (h : self.Gated lib ips address arrived)
    {env : Environment} {task : Task} (hfrom : FromAddress ips address task.request)
    {answer : Answer} {storage : RedisStorage V} (hphase : task.phase = .checking_blocked)
    (hcall : Service.call_storage lib ips numerals self.storage env task = some (answer, storage)) :
    answer = .found true ∨ answer = .raised .storage_unavailable_error := by
  obtain ⟨client_ip, hclient, haddress⟩ := hfrom
  simp only [Service.call_storage, hphase, hclient, Option.some.injEq, Prod.mk.injEq] at hcall
  obtain ⟨rfl, -⟩ := hcall
  rcases h.blocks.is_blocked env haddress with hlookup | hlookup
  · exact Or.inl (by rw [hlookup]; rfl)
  · exact Or.inr (by rw [hlookup]; rfl)

/-- A step of the middleware that answers no lookup at the gate other than by
    a block, an unavailable storage or a cancellation. -/
theorem Gated.world_step {arrived : Nat} {self : Service V} (h : self.Gated lib ips address arrived)
    {label : Label} {world : World} (hstep : self.world.step label = some world)
    (hanswer : ∀ index answer task, label = .resume index answer → self.world.tasks[index]? = some task →
      FromAddress ips address task.request → task.phase = .checking_blocked → answer = .found true ∨
        answer = .raised .storage_unavailable_error ∨ answer = .raised .cancelled_error) :
    ∀ index task, arrived ≤ index → world.tasks[index]? = some task →
      FromAddress ips address task.request → task.AtGate := by
  intro position other harrived hother hfrom
  cases label with
  | arrive request =>
    cases hstep
    simp only at hother
    rw [List.getElem?_append] at hother
    split at hother
    · exact h.at_gate position other harrived hother hfrom
    · obtain rfl := List.mem_singleton.mp (List.mem_of_getElem? hother)
      obtain ⟨client_ip, hclient, -⟩ := hfrom
      rw [Frame.start_request] at hclient
      exact Frame.start_atGate hclient self.world.limiter self.world.coordinator
  | resume index answer =>
    obtain ⟨task, frame, htask, hframe, rfl⟩ := World.step_resume hstep
    rcases getElem?_set_cases htask hother with ⟨rfl, rfl⟩ | hother
    · rw [Frame.resume_request hframe] at hfrom
      have hgate : (Frame.mk self.world.coordinator task).task.AtGate := h.at_gate index task harrived htask hfrom
      exact Frame.resume_atGate hgate (hanswer index answer task rfl htask hfrom) hframe
    · exact h.at_gate position other harrived hother hfrom
  | rebind index extensions =>
    obtain ⟨task, htask, happ, rfl⟩ := World.step_rebind hstep
    rcases getElem?_set_cases htask hother with ⟨rfl, rfl⟩ | hother
    · exact absurd happ (h.at_gate index task harrived htask hfrom).not_in_app
    · exact h.at_gate position other harrived hother hfrom
  | begin_shutdown mode =>
    cases hstep
    exact h.at_gate position other harrived hother hfrom
  | configure limiter =>
    cases hstep
    exact h.at_gate position other harrived hother hfrom

theorem Gated.step {arrived : Nat} {self next : Service V} (h : self.Gated lib ips address arrived)
    {label : ServiceLabel V} (hleaves : ServiceLabel.LeavesBlock ips address label)
    (hstep : self.step lib ips numerals label = some next) : next.Gated lib ips address arrived := by
  cases label with
  | operate operation env =>
    cases hstep
    exact ⟨h.blocks.operate numerals env hleaves, h.at_gate⟩
  | manage operation env =>
    cases hstep
    exact ⟨h.blocks.manage env hleaves, h.at_gate⟩
  | consult index env =>
    obtain ⟨task, answer, storage, world, htask, hcall, hworld, rfl⟩ := step_consult hstep
    refine ⟨h.call_storage hcall, h.world_step hworld ?_⟩
    rintro _ _ found ⟨⟩ hfound hfrom hphase
    cases htask.symm.trans hfound
    exact (h.answer hfrom hphase hcall).imp_right Or.inl
  | take label =>
    obtain ⟨hadmissible, hworld, hstorage⟩ := step_take hstep
    refine ⟨hstorage ▸ h.blocks, h.world_step hworld ?_⟩
    rintro index answer task rfl htask hfrom hphase
    exact Or.inr (Or.inr (answer_of_admissible hadmissible htask (by rw [hphase]; rfl)))

/-- Blocks never fail open in closed mode. Once `block_ip` without a duration has
    returned, and until an equal address is blocked or unblocked again, no request
    from an equal address reaches the app or counts a hit, and it is answered 403
    or 503 unless it is cancelled: whatever the counter mode, whichever calls of
    the client raise, before or after the server ran them, and whatever else uses
    the storage. -/
theorem blocked_ip_never_admitted {system blocked final : Service V} {env : Environment} {ip : String}
    {labels : List (ServiceLabel V)} (hclosed : system.storage.control_failure_mode = .fail_closed)
    (haddress : ips.ip_address ip = some address)
    (hreturned : (block_ip ips (RedisStorage.at_call lib env) system.storage ip none).1 = .ok ())
    (hblock : system.step lib ips numerals (.manage (.block_ip ip none) env) = some blocked)
    (hleaves : ∀ label ∈ labels, ServiceLabel.LeavesBlock ips address label)
    (hrun : execute (Service.step lib ips numerals) blocked labels = some final) :
    ∀ index task, blocked.world.tasks.length ≤ index → final.world.tasks[index]? = some task →
      FromAddress ips address task.request →
      (∀ max_rate seen, .app_invoked max_rate seen ∉ task.log) ∧
      (∀ request_key handler_name rule_index, .hit_requested request_key handler_name rule_index ∉ task.log) ∧
      (∀ response, .responding response ∈ task.log → response.status_code = 403 ∨ response.status_code = 503) ∧
      ∀ outcome, task.phase = .finished outcome →
        (∃ response, .responding response ∈ task.log) ∨ outcome = .raised .cancelled_error := by
  have hinit : blocked.Gated lib ips address blocked.world.tasks.length := by
    cases hblock
    refine ⟨RedisStorage.blocks_of_block_ip hclosed haddress hreturned, ?_⟩
    intro index task hlength htask
    exact absurd (List.getElem?_eq_some_iff.mp htask).1 (Nat.not_lt.mpr hlength)
  have hfinal : final.Gated lib ips address blocked.world.tasks.length :=
    execute_invariant_along _ hinit
      (fun _ _ _ _ _ hsplit _ h hstep => h.step (hleaves _ (by rw [hsplit]; simp)) hstep) hrun
  intro index task harrived htask hfrom
  have hrefused := (hfinal.at_gate index task harrived htask hfrom).refused
  exact ⟨hrefused.uninvoked, hrefused.uncounted, hrefused.refusals, hrefused.answered⟩

/-- A request from a documentation address. -/
def visit : Request where
  client_ip := some "192.0.2.1"
  handler_names _ := []
  scope_identifiers _ _ := .ok .empty
  extensions := none

def unreachable : Environment := { Environment.healthy 0 "" with fault := .before }

def idle : Service PlainValue := ⟨RedisStorage.default, .init .init⟩

/-- Two visits of a blocked client, of which the first finds the server down. -/
def two_visits : List (ServiceLabel PlainValue) :=
  [.take (.arrive visit), .consult 0 unreachable, .take (.arrive visit),
    .consult 1 (Environment.healthy 1 ""), .take (.resume 1 .returned)]

theorem two_visits_refused :
    ∃ blocked final : Service PlainValue,
      idle.step Libraries.plain IpLibrary.documentation (.exact id)
        (.manage (.block_ip "192.0.2.1" none) (Environment.healthy 0 "")) = some blocked ∧
      execute (Service.step Libraries.plain IpLibrary.documentation (.exact id)) blocked two_visits = some final ∧
      ∀ (index : Nat) (task : Task), final.world.tasks[index]? = some task →
        FromAddress IpLibrary.documentation .v4 task.request →
        ∀ response, .responding response ∈ task.log →
          response.status_code = 403 ∨ response.status_code = 503 := by
  have hblock : idle.step Libraries.plain IpLibrary.documentation (.exact id)
      (.manage (.block_ip "192.0.2.1" none) (Environment.healthy 0 "")) = some _ := rfl
  have hleaves : ∀ label ∈ two_visits, ServiceLabel.LeavesBlock IpLibrary.documentation .v4 label := by
    simp [two_visits, ServiceLabel.LeavesBlock]
  refine ⟨_, _, hblock, rfl, ?_⟩
  intro index task htask hfrom
  exact (blocked_ip_never_admitted rfl (by decide) rfl hblock hleaves rfl index task (Nat.zero_le index)
    htask hfrom).2.2.1

end Service

end response_bandwidth_limiter.middleware

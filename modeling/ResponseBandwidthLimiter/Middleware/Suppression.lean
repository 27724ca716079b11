import ResponseBandwidthLimiter.Middleware.Delivery
import ResponseBandwidthLimiter.Streaming.Answers

open collections
open response_bandwidth_limiter.streaming

namespace response_bandwidth_limiter.middleware

variable {R : Type}

/-- The message ends the body of the response. -/
def Message.Final (self : Message R) : Prop := self.type = "http.response.body" ∧ self.more_body.getD false = false

/-- The bytes of some messages. -/
def contents (messages : List (Message R)) : List UInt8 := messages.flatMap Message.content

@[simp] theorem contents_append (first second : List (Message R)) :
    contents (first ++ second) = contents first ++ contents second := List.flatMap_append

@[simp] theorem contents_singleton (message : Message R) : contents [message] = message.content := by
  simp [contents]

theorem body_message_final {body : List UInt8} {more_body : Bool} :
    (body_message body more_body : Message R).Final ↔ more_body = false := by
  simp [Message.Final, body_message]

theorem Message.final_iff_of_bytes (self : Message R) (hcontent : self.content ≠ []) :
    self.Final ↔ self.more_body.getD false = false := by
  have htype : self.type = "http.response.body" := by
    by_contra hne
    exact hcontent (if_neg hne)
  simp [Message.Final, htype]

section Branches

variable (streamer : ResponseStreamer) (checks : Checks) (max_rate : ℤ) {message : Message R}

theorem send_with_limit_of_empty (hcontent : message.content = []) :
    send_with_limit streamer checks max_rate message = .perform (.send message) := by
  unfold Message.content at hcontent
  unfold send_with_limit
  split at hcontent
  · next htype => simp [htype, hcontent]
  · next htype => simp [htype]

theorem send_with_limit_of_bytes (hcontent : message.content ≠ []) :
    send_with_limit streamer checks max_rate message =
      send_limited_body streamer checks max_rate message.content (message.more_body.getD false) := by
  unfold Message.content at hcontent ⊢
  unfold send_with_limit
  split at hcontent
  · next htype => simp [htype, hcontent]
  · exact absurd rfl hcontent

end Branches

section Parts

variable {more_body : Bool} {total : Nat}

theorem contents_flagged (offset : Nat) (yielded : List (List UInt8)) :
    contents (flagged more_body total offset yielded : List (Message R)) = yielded.flatten := by
  induction yielded generalizing offset with
  | nil => rfl
  | cons part rest ih =>
    have hpart : (body_message part (more_body || offset + part.length < total) : Message R).content = part :=
      if_pos rfl
    rw [flagged, contents, List.flatMap_cons, hpart, List.flatten_cons]
    exact congrArg _ (ih _)

/-- No part before the last ends the body. -/
theorem flagged_not_final {offset : Nat} {yielded : List (List UInt8)}
    (hlt : offset + yielded.flatten.length < total)
    {message : Message R} (hmem : message ∈ flagged more_body total offset yielded) : ¬ message.Final := by
  induction yielded generalizing offset with
  | nil => cases hmem
  | cons part rest ih =>
    rw [List.flatten_cons, List.length_append] at hlt
    rcases List.mem_cons.mp hmem with rfl | hrest
    · rw [body_message_final, decide_eq_true (show offset + part.length < total by omega), Bool.or_true]
      exact Bool.noConfusion
    · exact ih (by omega) hrest

/-- The whole body ends the response exactly when the message does. -/
theorem flagged_final_iff {body : List UInt8} (hbody : body ≠ []) {yielded : List (List UInt8)}
    (hflatten : yielded.flatten = body) (hparts : ∀ part ∈ yielded, part ≠ []) :
    (∃ message ∈ (flagged more_body body.length 0 yielded : List (Message R)), message.Final) ↔
      more_body = false := by
  rcases List.eq_nil_or_concat yielded with rfl | ⟨bodies, last, rfl⟩
  · exact absurd hflatten.symm hbody
  have hflagged := flagged_complete (R := R) more_body 0 bodies (hparts last (by simp))
  rw [Nat.zero_add, ← List.concat_eq_append, hflatten] at hflagged
  rw [hflagged]
  simp [body_message_final]

end Parts

section Delivery

variable {abort poll : Nat → Bool} {max_rate : ℤ}

/-- The wait for a part. -/
def wait_for_part (checks : Checks) (max_rate : ℤ) (part : List UInt8) : Streaming (Message R) Unit := do
  check_abort checks
  sleep_with_abort_check checks (part.length / max_rate)
  check_abort checks

theorem yield_parts_cons (checks : Checks) (body : List UInt8) (size : Nat) {S : Type}
    (consume : S → List UInt8 → Streaming (Message R) S) (index : Nat) (rest : List Nat) (state : S) :
    yield_parts checks body max_rate size consume (index :: rest) state = (do
      wait_for_part checks max_rate ((body.drop index).take size)
      let state ← consume state ((body.drop index).take size)
      yield_parts checks body max_rate size consume rest state) := by
  rw [yield_parts, wait_for_part]
  simp only [Streaming.bind_assoc]

theorem wait_for_part_asked (abort poll : Nat → Bool) (max_rate : ℤ) (part : List UInt8)
    (self : Transcript (Message R)) :
    ∃ outcome later, (wait_for_part ⟨some abort, some poll⟩ max_rate part).run self = (outcome, later) ∧
      Waits abort self later outcome := by
  obtain ⟨_, first, hfirst, hchecked⟩ := check_abort_waits abort poll self
  obtain ⟨_, asleep, hsleep, hslept⟩ := sleep_with_abort_check_waits (part.length / max_rate) first
  exact hchecked.bind hfirst (hslept.bind hsleep (check_abort_waits abort poll asleep))

/-- The loop over the parts of a body, whatever it is answered: it ends before
    the last part only for an abort that it was told of. -/
theorem yield_parts_asked (abort poll : Nat → Bool) (max_rate : ℤ) (body : List UInt8) (more_body : Bool)
    (size : Nat) (indexes : List Nat) (sent_bytes : Nat)
    (self : Transcript (Message R)) :
    ∃ outcome later yielded remaining,
      (yield_parts ⟨some abort, some poll⟩ body max_rate size (send_part body more_body) indexes
        sent_bytes).run self =
        (outcome, later) ∧ parts body size indexes = yielded ++ remaining ∧
      sent later.effects = sent self.effects ++ flagged more_body body.length sent_bytes yielded ∧
      self.checks ≤ later.checks ∧
      ((outcome = .ok (sent_bytes + yielded.flatten.length) ∧ remaining = []) ∨
        (outcome = .error aborted_error ∧ remaining ≠ [] ∧ Answered abort self later)) := by
  induction indexes generalizing sent_bytes self with
  | nil => exact ⟨_, self, [], [], rfl, rfl, by simp [flagged], le_refl _, Or.inl ⟨rfl, rfl⟩⟩
  | cons index rest ih =>
    have hcut : parts body size (index :: rest) = (body.drop index).take size :: parts body size rest := rfl
    rw [yield_parts_cons, hcut]
    generalize (body.drop index).take size = part
    obtain ⟨outcome, awake, hwait, hwaits⟩ := wait_for_part_asked abort poll max_rate part self
    rcases hwaits.outcome_eq with rfl | ⟨rfl, hanswered⟩
    · let message : Message R := body_message part (more_body || sent_bytes + part.length < body.length)
      have hpart : (send_part body more_body sent_bytes part).run awake =
          (.ok (sent_bytes + part.length), { awake with effects := awake.effects ++ [.send message] }) := rfl
      obtain ⟨outcome, later, yielded, remaining, hrest, hparts, hsent, hchecks, hend⟩ :=
        ih (sent_bytes + part.length) { awake with effects := awake.effects ++ [.send message] }
      refine ⟨outcome, later, part :: yielded, remaining, ?_, by rw [hparts, List.cons_append], ?_,
        hwaits.checks.trans hchecks, ?_⟩
      · rw [Streaming.run_bind_of_ok hwait, Streaming.run_bind_of_ok hpart, hrest]
      · rw [hsent, sent_append, hwaits.sent_eq, List.append_assoc, flagged]
        rfl
      · rw [List.flatten_cons, List.length_append, ← Nat.add_assoc]
        apply hend.imp_right
        intro haborted
        exact ⟨haborted.1, haborted.2.1, haborted.2.2.widen hwaits.checks (le_refl _)⟩
    · exact ⟨_, awake, [], _, Streaming.run_bind_of_error hwait, rfl,
        by rw [hwaits.sent_eq, flagged, List.append_nil],
        hwaits.checks, Or.inr ⟨rfl, List.cons_ne_nil _ _, hanswered⟩⟩

theorem effective_chunk_size_pos (streamer : ResponseStreamer) (hrate : 1 ≤ max_rate) :
    0 < effective_chunk_size streamer max_rate := by
  have heq := effective_chunk_size_eq streamer (show 0 < max_rate by omega)
  have hpos := streamer.chunk_size_pos
  omega

/-- What becomes of a message that went through. -/
structure Whole (message : Message R) (group : List (Message R)) : Prop where
  contents_eq : contents group = message.content
  final_iff : (∃ sent ∈ group, sent.Final) ↔ message.Final

/-- What becomes of a message that an abort cut short. -/
structure Cut (message : Message R) (group : List (Message R)) : Prop where
  content_ne : message.content ≠ []
  shorter : (contents group).length < message.content.length
  not_final : ∀ sent ∈ group, ¬ sent.Final

/-- A message with bytes, whatever is answered on the way. -/
theorem send_limited_body_asked (abort poll : Nat → Bool) (streamer : ResponseStreamer) (hrate : 1 ≤ max_rate)
    {body : List UInt8}
    (hbody : body ≠ []) (more_body : Bool) (self : Transcript (Message R)) :
    ∃ outcome later group,
      (send_limited_body streamer ⟨some abort, some poll⟩ max_rate body more_body).run self = (outcome, later) ∧
      sent later.effects = sent self.effects ++ group ∧ self.checks ≤ later.checks ∧
      ((outcome = .ok () ∧ contents group = body ∧ ((∃ message ∈ group, message.Final) ↔ more_body = false)) ∨
        (outcome = .error aborted_error ∧ (contents group).length < body.length ∧
          (∀ message ∈ group, ¬ message.Final) ∧ Answered abort self later)) := by
  obtain ⟨hflatten, hparts⟩ := parts_range body (effective_chunk_size_pos streamer hrate)
  obtain ⟨outcome, later, yielded, remaining, hyield, hcut, hsent, hchecks, hend⟩ :=
    yield_parts_asked abort poll max_rate body more_body
      (effective_chunk_size streamer max_rate) (range body.length (effective_chunk_size streamer max_rate)) 0 self
  have hall : yielded.flatten ++ remaining.flatten = body := by rw [← hflatten, hcut, List.flatten_append]
  have hrun : (yield_limited_chunks streamer ⟨some abort, some poll⟩ body max_rate (send_part body more_body) 0).run
      self = (outcome, later) := by
    rw [yield_limited_chunks, if_neg (by omega)]
    exact hyield
  rcases hend with ⟨rfl, rfl⟩ | ⟨rfl, hne, hanswered⟩
  · rw [List.flatten_nil, List.append_nil] at hall
    have hbytes : 0 + yielded.flatten.length ≠ 0 := by
      rw [hall, Nat.zero_add]
      exact fun hzero => hbody (List.length_eq_zero_iff.mp hzero)
    refine ⟨.ok (), later, _, ?_, hsent, hchecks, Or.inl ⟨rfl, by rw [contents_flagged, hall], ?_⟩⟩
    · rw [send_limited_body, Streaming.run_bind_of_ok hrun, if_neg hbytes]
      rfl
    · exact flagged_final_iff hbody hall fun part hpart =>
        (hparts part (by rw [hcut]; exact List.mem_append_left _ hpart)).1
  · obtain ⟨part, rest, rfl⟩ := List.exists_cons_of_ne_nil hne
    have hpart : part ≠ [] := (hparts part (by rw [hcut]; simp)).1
    have hlt : yielded.flatten.length < body.length := by
      have hpos := List.length_pos_iff.mpr hpart
      rw [← hall, List.flatten_cons, List.length_append, List.length_append]
      omega
    refine ⟨_, later, _, ?_, hsent, hchecks, Or.inr ⟨rfl, by rwa [contents_flagged], ?_, hanswered⟩⟩
    · rw [send_limited_body, Streaming.run_bind_of_error hrun]
    · exact fun message hmem => flagged_not_final (by rwa [Nat.zero_add]) hmem

/-- What sending a message does: the message goes through whole, or an abort that
    was told of cuts it short. -/
structure Handles (abort : Nat → Bool) (message : Message R) (before later : Transcript (Message R))
    (outcome : Except StreamingError Unit) : Prop where
  checks : before.checks ≤ later.checks
  sent_eq : ∃ group, sent later.effects = sent before.effects ++ group ∧
    ((outcome = .ok () ∧ Whole message group) ∨
      (outcome = .error aborted_error ∧ Cut message group ∧ Answered abort before later))

/-- The spec of `send_with_limit`, whatever is answered on the way. -/
theorem send_with_limit_asked (abort poll : Nat → Bool) (streamer : ResponseStreamer) (hrate : 1 ≤ max_rate)
    (message : Message R) (self : Transcript (Message R)) :
    ∃ outcome later, (send_with_limit streamer ⟨some abort, some poll⟩ max_rate message).run self =
      (outcome, later) ∧
      Handles abort message self later outcome := by
  by_cases hcontent : message.content = []
  · rw [send_with_limit_of_empty streamer _ max_rate hcontent]
    refine ⟨_, _, rfl, le_refl _, [message], by rw [sent_append]; rfl, Or.inl ⟨rfl, contents_singleton message, ?_⟩⟩
    simp
  · obtain ⟨outcome, later, group, hrun, hsent, hchecks, hend⟩ :=
      send_limited_body_asked abort poll streamer hrate hcontent (message.more_body.getD false) self
    rw [send_with_limit_of_bytes streamer _ max_rate hcontent]
    refine ⟨outcome, later, hrun, hchecks, group, hsent, ?_⟩
    rcases hend with ⟨rfl, hbytes, hfinal⟩ | ⟨rfl, hshorter, hfinal, hanswered⟩
    · exact Or.inl ⟨rfl, hbytes, hfinal.trans (message.final_iff_of_bytes hcontent).symm⟩
    · exact Or.inr ⟨rfl, ⟨hcontent, hshorter, hfinal⟩, hanswered⟩

/-- Once an abort is told of, a message with bytes does not begin. -/
theorem send_with_limit_refused {abort : Nat → Bool} (poll : Nat → Bool) (streamer : ResponseStreamer)
    (hrate : 1 ≤ max_rate) {message : Message R} (hcontent : message.content ≠ []) {self : Transcript (Message R)}
    (habort : abort self.checks = true) :
    (send_with_limit streamer ⟨some abort, some poll⟩ max_rate message).run self =
      (.error aborted_error, { self with checks := self.checks + 1 }) := by
  have hsize := effective_chunk_size_pos streamer hrate
  obtain ⟨index, rest, hrange⟩ : ∃ index rest,
      range message.content.length (effective_chunk_size streamer max_rate) = index :: rest := by
    refine List.exists_cons_of_ne_nil fun hrange => hcontent ?_
    rw [← (parts_range message.content hsize).1, hrange]
    rfl
  have hcheck := check_abort_asked abort poll self
  rw [habort, if_pos rfl] at hcheck
  rw [send_with_limit_of_bytes streamer _ max_rate hcontent, send_limited_body, yield_limited_chunks,
    if_neg (by omega), hrange, yield_parts]
  exact Streaming.run_bind_of_error (Streaming.run_bind_of_error hcheck)

theorem yield_parts_steady (max_rate : ℤ) (body : List UInt8) (more_body : Bool) (size : Nat) (indexes : List Nat)
    (sent_bytes : Nat) (self : Transcript (Message R)) :
    ∃ final later, Steady (fun abort =>
      yield_parts (unpolled abort) body max_rate size (send_part body more_body) indexes sent_bytes) self final
        later := by
  induction indexes generalizing sent_bytes self with
  | nil => exact ⟨sent_bytes, self, steady_pure self sent_bytes⟩
  | cons index rest ih =>
    let part := (body.drop index).take size
    obtain ⟨asleep, hslept⟩ := sleep_with_abort_check_steady (part.length / max_rate)
      { self with checks := self.checks + 1 }
    have hpart : Steady (fun _ => send_part body more_body sent_bytes part)
        { asleep with checks := asleep.checks + 1 }
        _ { asleep with
          checks := asleep.checks + 1
          effects := asleep.effects ++
            [.send (body_message part (more_body || sent_bytes + part.length < body.length) : Message R)] } :=
      ⟨le_refl _, fun _ _ => rfl⟩
    obtain ⟨final, later, hrest⟩ := ih (sent_bytes + part.length) _
    exact ⟨final, later, (check_abort_steady self).bind (hslept.bind ((check_abort_steady asleep).bind
      (hpart.bind hrest)))⟩

/-- Without an abort a message goes through in one way. -/
theorem send_with_limit_steady (streamer : ResponseStreamer) (hrate : 1 ≤ max_rate) (message : Message R)
    (self : Transcript (Message R)) :
    ∃ later, Steady (fun abort => send_with_limit streamer (unpolled abort) max_rate message) self () later := by
  by_cases hcontent : message.content = []
  · refine ⟨_, (steady_perform self (.send message)).checks, fun abort _ => ?_⟩
    rw [send_with_limit_of_empty streamer _ max_rate hcontent]
    rfl
  · obtain ⟨final, middle, hparts⟩ := yield_parts_steady max_rate message.content (message.more_body.getD false)
      (effective_chunk_size streamer max_rate)
      (range message.content.length (effective_chunk_size streamer max_rate)) 0 self
    obtain ⟨later, hrest⟩ : ∃ later, Steady (fun _ => if final = 0 then
        Streaming.perform (.send (body_message message.content (message.more_body.getD false))) else pure ())
        middle () later := by
      split
      · exact ⟨_, steady_perform middle _⟩
      · exact ⟨_, steady_pure middle ()⟩
    have hwhole : Steady (fun abort => do
        let sent_bytes ← yield_parts (unpolled abort) message.content max_rate
          (effective_chunk_size streamer max_rate) (send_part message.content (message.more_body.getD false))
          (range message.content.length (effective_chunk_size streamer max_rate)) 0
        if sent_bytes = 0 then
          .perform (.send (body_message message.content (message.more_body.getD false)))) self () later :=
      hparts.bind hrest
    refine ⟨later, hwhole.checks, fun abort hanswers => ?_⟩
    rw [send_with_limit_of_bytes streamer _ max_rate hcontent, send_limited_body, yield_limited_chunks,
      if_neg (by omega)]
    exact hwhole.run abort hanswers

end Delivery

/-- What a send comes to for the application. -/
inductive SendOutcome where
  | sent
  | aborted
  deriving DecidableEq, Repr

/-- An application, by the message it sends next after what became of the ones
    before. It may catch the error of an aborted message and go on. -/
abbrev App (R : Type) := List SendOutcome → Option (Message R)

/-- A message of an application and what became of it. -/
abbrev Exchange (R : Type) := Message R × SendOutcome

/-- `try: await send(message)`, `except StreamingAbortedError`. -/
def attempt {M : Type} (first : Streaming M Unit) : Streaming M SendOutcome := ⟨fun self =>
  match first.run self with
  | (.ok _, self) => (.ok .sent, self)
  | (.error (.streaming_aborted_error _), self) => (.ok .aborted, self)
  | (.error e, self) => (.error e, self)⟩

/-- The first messages of an application and what becomes of them. -/
def converse (streamer : ResponseStreamer) (checks : Checks) (max_rate : ℤ) (app : App R) :
    Nat → Streaming (Message R) (List (Exchange R))
  | 0 => pure []
  | count + 1 => do
    let exchanges ← converse streamer checks max_rate app count
    match app (exchanges.map Prod.snd) with
    | none => pure exchanges
    | some message =>
      let outcome ← attempt (send_with_limit streamer checks max_rate message)
      return exchanges ++ [(message, outcome)]

/-- The exchanges an application can have. An abort refuses messages with bytes
    alone, and from then on all of them. -/
inductive Converses (app : App R) : List (Exchange R) → Prop
  | start : Converses app []
  | sent {exchanges : List (Exchange R)} {message : Message R} (h : Converses app exchanges)
      (hpassed : app (exchanges.map Prod.snd) = some message)
      (hwhole : message.content ≠ [] → ∀ exchange ∈ exchanges, exchange.2 = .sent) :
      Converses app (exchanges ++ [(message, .sent)])
  | aborted {exchanges : List (Exchange R)} {message : Message R} (h : Converses app exchanges)
      (hpassed : app (exchanges.map Prod.snd) = some message) (hcontent : message.content ≠ []) :
      Converses app (exchanges ++ [(message, .aborted)])

/-- Some message was refused. -/
def Refused (exchanges : List (Exchange R)) : Prop := ∃ exchange ∈ exchanges, exchange.2 = .aborted

/-- Some message went through and ends the body. -/
def Finished (exchanges : List (Exchange R)) : Prop := ∃ exchange ∈ exchanges, exchange.2 = .sent ∧ exchange.1.Final

theorem not_refused_iff {exchanges : List (Exchange R)} :
    ¬ Refused exchanges ↔ ∀ exchange ∈ exchanges, exchange.2 = .sent := by
  unfold Refused
  push Not
  apply forall₂_congr
  intro exchange _
  cases exchange.2 <;> simp

theorem refused_concat {exchanges : List (Exchange R)} {exchange : Exchange R} :
    Refused (exchanges ++ [exchange]) ↔ Refused exchanges ∨ exchange.2 = .aborted := by
  simp [Refused, or_and_right, exists_or]

theorem finished_concat {exchanges : List (Exchange R)} {exchange : Exchange R} :
    Finished (exchanges ++ [exchange]) ↔ Finished exchanges ∨ (exchange.2 = .sent ∧ exchange.1.Final) := by
  simp [Finished, or_and_right, exists_or]

/-- What has been forwarded of some exchanges. -/
structure Delivered (abort : Nat → Bool) (exchanges : List (Exchange R)) (transcript : Transcript (Message R)) :
    Prop where
  whole : ¬ Refused exchanges → contents (sent transcript.effects) = contents (exchanges.map Prod.fst)
  length_le : (contents (sent transcript.effects)).length ≤ (contents (exchanges.map Prod.fst)).length
  shorter : Refused exchanges →
    (contents (sent transcript.effects)).length < (contents (exchanges.map Prod.fst)).length
  final_iff : (∃ message ∈ sent transcript.effects, message.Final) ↔ Finished exchanges
  refuses : Refused exchanges → ∀ question, transcript.checks ≤ question → abort question = true

section Conversations

variable {abort poll : Nat → Bool} {max_rate : ℤ} {exchanges : List (Exchange R)} {message : Message R}
  {self later : Transcript (Message R)}

theorem delivered_start : Delivered abort ([] : List (Exchange R)) ⟨0, []⟩ where
  whole _ := rfl
  length_le := le_refl _
  shorter h := absurd h (by simp [Refused])
  final_iff := by simp [Finished, streaming.sent]
  refuses h := absurd h (by simp [Refused])

/-- Bytes are missing exactly when a message was refused. -/
theorem Delivered.suppressed_iff (h : Delivered abort exchanges self) :
    contents (sent self.effects) ≠ contents (exchanges.map Prod.fst) ↔ Refused exchanges := by
  constructor
  · exact fun hne => by_contra fun hnone => hne (h.whole hnone)
  · exact fun hrefused heq => (h.shorter hrefused).ne (congrArg List.length heq)

theorem Delivered.sent (h : Delivered abort exchanges self) {group : List (Message R)} (hwhole : Whole message group)
    (hsent : sent later.effects = sent self.effects ++ group) (hchecks : self.checks ≤ later.checks) :
    Delivered abort (exchanges ++ [(message, .sent)]) later := by
  have hrefused : Refused (exchanges ++ [(message, SendOutcome.sent)]) ↔ Refused exchanges := by
    simp [refused_concat]
  have hall : contents (streaming.sent later.effects) =
      contents (streaming.sent self.effects) ++ message.content := by
    rw [hsent, contents_append, hwhole.contents_eq]
  constructor
  · intro hnone
    rw [hall, List.map_append, contents_append, h.whole (hrefused.not.mp hnone)]
    exact congrArg _ (contents_singleton message).symm
  · rw [hall, List.map_append, contents_append, List.length_append, List.length_append]
    exact Nat.add_le_add h.length_le (by simp)
  · intro hsome
    rw [hall, List.map_append, contents_append, List.length_append, List.length_append]
    exact Nat.add_lt_add_of_lt_of_le (h.shorter (hrefused.mp hsome)) (by simp)
  · rw [hsent, finished_concat, ← h.final_iff, ← hwhole.final_iff]
    simp [or_and_right, exists_or]
  · exact fun hsome question hle => h.refuses (hrefused.mp hsome) question (hchecks.trans hle)

theorem Delivered.aborted (h : Delivered abort exchanges self) {group : List (Message R)} (hcut : Cut message group)
    (hsent : streaming.sent later.effects = streaming.sent self.effects ++ group) (habort : Monotone abort)
    (hanswered : Answered abort self later) : Delivered abort (exchanges ++ [(message, .aborted)]) later := by
  have hrefused : Refused (exchanges ++ [(message, SendOutcome.aborted)]) := refused_concat.mpr (Or.inr rfl)
  have hshorter : (contents (streaming.sent later.effects)).length <
      (contents ((exchanges ++ [(message, SendOutcome.aborted)]).map Prod.fst)).length := by
    rw [hsent, contents_append, List.map_append, contents_append, List.length_append, List.length_append]
    refine Nat.add_lt_add_of_le_of_lt h.length_le (hcut.shorter.trans_le ?_)
    simp
  constructor
  · exact fun hnone => absurd hrefused hnone
  · exact hshorter.le
  · exact fun _ => hshorter
  · rw [hsent, finished_concat, ← h.final_iff]
    simp only [List.mem_append, or_and_right, exists_or]
    refine or_congr_right (iff_of_false ?_ (by simp))
    rintro ⟨found, hmem, hfinal⟩
    exact hcut.not_final found hmem hfinal
  · exact fun _ question hle => hanswered.stays habort hle

variable {streamer : ResponseStreamer} {app : App R}

theorem attempt_of_ok {M : Type} {first : Streaming M Unit} {self later : Transcript M}
    (hrun : first.run self = (.ok (), later)) : (attempt first).run self = (.ok .sent, later) := by
  simp only [attempt, hrun]

theorem attempt_of_aborted {M : Type} {first : Streaming M Unit} {self later : Transcript M}
    (hrun : first.run self = (.error aborted_error, later)) : (attempt first).run self = (.ok .aborted, later) := by
  simp only [attempt, hrun, aborted_error]

/-- One more message of an application that goes on. -/
theorem converse_succ {checks : Checks} {count : Nat} {start : Transcript (Message R)}
    (hrun : (converse streamer checks max_rate app count).run start = (.ok exchanges, self))
    (hpassed : app (exchanges.map Prod.snd) = some message) {outcome : SendOutcome}
    (houtcome : (attempt (send_with_limit streamer checks max_rate message)).run self = (.ok outcome, later)) :
    (converse streamer checks max_rate app (count + 1)).run start =
    (.ok (exchanges ++ [(message, outcome)]), later) := by
  rw [converse, Streaming.run_bind_of_ok hrun, hpassed]
  exact Streaming.run_bind_of_ok houtcome

/-- Every run of an application is one of its conversations. -/
theorem converse_run (streamer : ResponseStreamer) (hrate : 1 ≤ max_rate) (habort : Monotone abort)
    (poll : Nat → Bool) (app : App R) (count : Nat) :
    ∃ exchanges transcript,
      (converse streamer ⟨some abort, some poll⟩ max_rate app count).run ⟨0, []⟩ = (.ok exchanges, transcript) ∧
      Converses app exchanges ∧ Delivered abort exchanges transcript := by
  induction count with
  | zero => exact ⟨[], ⟨0, []⟩, rfl, .start, delivered_start⟩
  | succ count ih =>
    obtain ⟨exchanges, transcript, hrun, hconverses, hdelivered⟩ := ih
    cases hpassed : app (exchanges.map Prod.snd) with
    | none =>
      refine ⟨exchanges, transcript, ?_, hconverses, hdelivered⟩
      rw [converse, Streaming.run_bind_of_ok hrun, hpassed]
      rfl
    | some message =>
      obtain ⟨outcome, later, hsend, hhandles⟩ := send_with_limit_asked abort poll streamer hrate message transcript
      obtain ⟨group, hsent, ⟨rfl, hwhole⟩ | ⟨rfl, hcut, hanswered⟩⟩ := hhandles.sent_eq
      · refine ⟨_, later, converse_succ hrun hpassed (attempt_of_ok hsend), hconverses.sent hpassed ?_,
          hdelivered.sent hwhole hsent hhandles.checks⟩
        intro hcontent
        rw [← not_refused_iff]
        intro hrefused
        rw [send_with_limit_refused poll streamer hrate hcontent
          (hdelivered.refuses hrefused _ (le_refl _))] at hsend
        cases hsend
      · exact ⟨_, later, converse_succ hrun hpassed (attempt_of_aborted hsend),
          hconverses.aborted hpassed hcut.content_ne, hdelivered.aborted hcut hsent habort hanswered⟩

/-- Every conversation comes about with an abort at some moment. -/
theorem Converses.realized (h : Converses app exchanges) (streamer : ResponseStreamer) (hrate : 1 ≤ max_rate) :
    (¬ Refused exchanges ∧ ∃ later, Steady (fun abort =>
      converse streamer (unpolled abort) max_rate app exchanges.length) ⟨0, []⟩ exchanges later) ∨
    (Refused exchanges ∧ ∃ abort later, Monotone abort ∧ abort later.checks = true ∧
      (converse streamer (unpolled abort) max_rate app exchanges.length).run ⟨0, []⟩ = (.ok exchanges, later)) := by
  induction h with
  | start => exact Or.inl ⟨by simp [Refused], ⟨0, []⟩, steady_pure _ _⟩
  | @sent exchanges message h hpassed hwhole ih =>
    have hrefused : Refused (exchanges ++ [(message, SendOutcome.sent)]) ↔ Refused exchanges := by
      simp [refused_concat]
    rw [hrefused, List.length_append, List.length_singleton]
    rcases ih with ⟨hnone, middle, hsteady⟩ | ⟨hsome, abort, middle, habort, hstays, hrun⟩
    · obtain ⟨later, hsend⟩ := send_with_limit_steady streamer hrate message middle
      refine Or.inl ⟨hnone, later, hsteady.checks.trans hsend.checks, fun abort hanswers => ?_⟩
      exact converse_succ
        (hsteady.run abort fun question hlt => hanswers question (hlt.trans_le hsend.checks)) hpassed
        (attempt_of_ok (hsend.run abort hanswers))
    · have hcontent : message.content = [] := by
        by_contra hne
        exact not_refused_iff.mpr (hwhole hne) hsome
      have hsend : (send_with_limit streamer (unpolled abort) max_rate message).run middle =
          (.ok (), { middle with effects := middle.effects ++ [.send message] }) := by
        rw [send_with_limit_of_empty streamer _ max_rate hcontent]
        rfl
      exact Or.inr ⟨hsome, abort, { middle with effects := middle.effects ++ [.send message] }, habort, hstays,
        converse_succ hrun hpassed (attempt_of_ok hsend)⟩
  | @aborted exchanges message h hpassed hcontent ih =>
    rw [List.length_append, List.length_singleton]
    refine Or.inr ⟨refused_concat.mpr (Or.inr rfl), ?_⟩
    obtain ⟨abort, middle, habort, hstays, hrun⟩ : ∃ abort middle, Monotone abort ∧ abort middle.checks = true ∧
        (converse streamer (unpolled abort) max_rate app exchanges.length).run ⟨0, []⟩ =
        (.ok exchanges, middle) := by
      rcases ih with ⟨-, middle, hsteady⟩ | ⟨-, hrefusing⟩
      · -- the abort comes after the last question so far
        refine ⟨fun question => decide (middle.checks ≤ question), middle, fun first second hle => ?_, by simp, ?_⟩
        · simp only [Bool.le_iff_imp, decide_eq_true_eq]
          exact fun hfirst => hfirst.trans hle
        · exact hsteady.run _ fun question hlt => by simp [hlt]
      · exact hrefusing
    exact ⟨abort, _, habort, Bool.eq_true_of_true_le (hstays ▸ habort (Nat.le_succ _)),
      converse_succ hrun hpassed (attempt_of_aborted (send_with_limit_refused _ streamer hrate hcontent hstays))⟩

end Conversations

/-- An application that after a refused message ends no body with an empty
    message, and after the end of a body passes no more bytes. -/
structure Careful (app : App R) : Prop where
  refused : ∀ exchanges message, Converses app exchanges → app (exchanges.map Prod.snd) = some message →
    Refused exchanges → message.content = [] → ¬ message.Final
  finished : ∀ exchanges message, Converses app exchanges → app (exchanges.map Prod.snd) = some message →
    Finished exchanges → message.content = []

theorem Careful.not_finished {app : App R} (h : Careful app) {exchanges : List (Exchange R)}
    (hconverses : Converses app exchanges) (hrefused : Refused exchanges) : ¬ Finished exchanges := by
  induction hconverses with
  | start => simp [Refused] at hrefused
  | @sent exchanges message hearlier hpassed hwhole ih =>
    have hrefused : Refused exchanges := by simpa [refused_concat] using hrefused
    rw [finished_concat]
    rintro (hfinished | ⟨-, hfinal⟩)
    · exact ih hrefused hfinished
    · have hcontent : message.content = [] := by
        by_contra hne
        exact not_refused_iff.mpr (hwhole hne) hrefused
      exact h.refused exchanges message hearlier hpassed hrefused hcontent hfinal
  | @aborted exchanges message hearlier hpassed hcontent ih =>
    rw [finished_concat]
    rintro (hfinished | ⟨hsent, -⟩)
    · exact hcontent (h.finished exchanges message hearlier hpassed hfinished)
    · cases hsent

/-- A response of which an abort suppressed some bytes is never ended, whenever
    the abort comes, exactly for the careful applications. -/
theorem aborted_never_complete_iff (streamer : ResponseStreamer) {max_rate : ℤ} (hrate : 1 ≤ max_rate)
    (app : App R) :
    (∀ (abort poll : Nat → Bool) (count : Nat), Monotone abort → ∃ exchanges transcript,
      (converse streamer ⟨some abort, some poll⟩ max_rate app count).run ⟨0, []⟩ = (.ok exchanges, transcript) ∧
      (contents (sent transcript.effects) ≠ contents (exchanges.map Prod.fst) →
        ∀ message ∈ sent transcript.effects, ¬ message.Final)) ↔ Careful app := by
  constructor
  · intro hnever
    have hunfinished {exchanges : List (Exchange R)} (hconverses : Converses app exchanges)
        (hrefused : Refused exchanges) : ¬ Finished exchanges := by
      obtain ⟨-, abort, later, habort, -, hrun⟩ :=
        (hconverses.realized streamer hrate).resolve_left (fun hnone => hnone.1 hrefused)
      obtain ⟨found, transcript, hfound, hfinal⟩ := hnever abort (fun _ => false) exchanges.length habort
      obtain ⟨known, final, hknown, -, hdelivered⟩ :=
        converse_run streamer hrate habort (fun _ => false) app exchanges.length
      obtain ⟨rfl, rfl⟩ : exchanges = known ∧ later = final := by
        rw [unpolled, hknown] at hrun
        cases hrun
        exact ⟨rfl, rfl⟩
      obtain ⟨rfl, rfl⟩ : exchanges = found ∧ later = transcript := by
        rw [hknown] at hfound
        cases hfound
        exact ⟨rfl, rfl⟩
      rw [← hdelivered.final_iff]
      rintro ⟨message, hmem, hends⟩
      exact hfinal (hdelivered.suppressed_iff.mpr hrefused) message hmem hends
    constructor
    · intro exchanges message hconverses hpassed hrefused hcontent hfinal
      exact hunfinished (hconverses.sent hpassed (fun hne => absurd hcontent hne))
        (refused_concat.mpr (Or.inl hrefused)) (finished_concat.mpr (Or.inr ⟨rfl, hfinal⟩))
    · intro exchanges message hconverses hpassed hfinished
      by_contra hcontent
      exact hunfinished (hconverses.aborted hpassed hcontent) (refused_concat.mpr (Or.inr rfl))
        (finished_concat.mpr (Or.inl hfinished))
  · intro hcareful abort poll count habort
    obtain ⟨exchanges, transcript, hrun, hconverses, hdelivered⟩ :=
      converse_run streamer hrate habort poll app count
    refine ⟨exchanges, transcript, hrun, fun hsuppressed message hmem hfinal => ?_⟩
    exact hcareful.not_finished hconverses (hdelivered.suppressed_iff.mp hsuppressed)
      (hdelivered.final_iff.mp ⟨message, hmem, hfinal⟩)

/-- An application that sends a body and, whatever becomes of it, an empty end. -/
def stubborn : App Unit
  | [] => some ⟨"http.response.start", none, none, .empty⟩
  | [_] => some ⟨"http.response.body", some [1, 2, 3], some true, .empty⟩
  | [_, _] => some ⟨"http.response.body", none, none, .empty⟩
  | _ => none

theorem stubborn_never_complete_iff :
    (∀ (abort poll : Nat → Bool) (count : Nat), Monotone abort → ∃ exchanges transcript,
      (converse ⟨10, by decide⟩ ⟨some abort, some poll⟩ 10 stubborn count).run ⟨0, []⟩ =
        (.ok exchanges, transcript) ∧
      (contents (sent transcript.effects) ≠ contents (exchanges.map Prod.fst) →
        ∀ message ∈ sent transcript.effects, ¬ message.Final)) ↔ Careful stubborn :=
  aborted_never_complete_iff ⟨10, by decide⟩ (by decide) stubborn

/-- With an abort from the start the body is lost and the end goes through. -/
theorem stubborn_presents_complete :
    ¬ ∀ (streamer : ResponseStreamer) (max_rate : ℤ) (app : App Unit) (abort poll : Nat → Bool) (count : Nat)
      (exchanges : List (Exchange Unit)) (transcript : Transcript (Message Unit)), 1 ≤ max_rate → Monotone abort →
      (converse streamer ⟨some abort, some poll⟩ max_rate app count).run ⟨0, []⟩ = (.ok exchanges, transcript) →
      contents (sent transcript.effects) ≠ contents (exchanges.map Prod.fst) →
      ∀ message ∈ sent transcript.effects, ¬ message.Final := by
  intro hclaim
  exact hclaim ⟨10, by decide⟩ 10 stubborn (fun _ => true) (fun _ => true) 3 _ _ (by decide) monotone_const rfl
    (by decide) ⟨"http.response.body", none, none, .empty⟩ (List.mem_cons_of_mem _ (List.mem_singleton.mpr rfl))
    ⟨rfl, rfl⟩

end response_bandwidth_limiter.middleware

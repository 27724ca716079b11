import ResponseBandwidthLimiter.Collections.OrderedDict
import ResponseBandwidthLimiter.Streaming

open collections
open response_bandwidth_limiter.streaming

namespace response_bandwidth_limiter.middleware

/-- A message of the application: the entries that `send_with_limit` reads, and
    the other ones. -/
structure Message (R : Type) where
  type : String
  body : Option (List UInt8)
  more_body : Option Bool
  rest : OrderedDict String R

variable {R : Type}

def body_message (body : List UInt8) (more_body : Bool) : Message R :=
  ⟨"http.response.body", some body, some more_body, .empty⟩

section Source

variable (streamer : ResponseStreamer) (checks : Checks) (max_rate : ℤ)

/-- The loop body of `_send_limited_body`. -/
def send_part (body : List UInt8) (more_body : Bool) (sent_bytes : Nat) (limited_chunk : List UInt8) :
    Streaming (Message R) Nat := do
  let sent_bytes := sent_bytes + limited_chunk.length
  .perform (.send (body_message limited_chunk (more_body || sent_bytes < body.length)))
  return sent_bytes

def send_limited_body (body : List UInt8) (more_body : Bool) : Streaming (Message R) Unit := do
  let sent_bytes ← yield_limited_chunks streamer checks body max_rate (send_part body more_body) 0
  if sent_bytes = 0 then .perform (.send (body_message body more_body))

def send_with_limit (message : Message R) : Streaming (Message R) Unit :=
  if message.type ≠ "http.response.body" then .perform (.send message)
  else
    let body := message.body.getD []
    if body.isEmpty then .perform (.send message)
    else send_limited_body streamer checks max_rate body (message.more_body.getD false)

/-- An application that sends some messages and returns. -/
def deliver : List (Message R) → Streaming (Message R) Unit
  | [] => pure ()
  | message :: rest => do
    send_with_limit streamer checks max_rate message
    deliver rest

end Source

section Specification

/-- The bytes a message adds to the body of the response. -/
def Message.content (self : Message R) : List UInt8 :=
  if self.type = "http.response.body" then self.body.getD [] else []

/-- What stands for a message on its way to the server: the message itself, or
    the parts of its body, of which the last has its flag. -/
def Forwarded (limit : ℤ) (message : Message R) (group : List (Message R)) : Prop :=
  if message.content = [] then group = [message]
  else
    ∃ bodies last, group = bodies.map (body_message · true) ++ [body_message last (message.more_body.getD false)] ∧
      (bodies ++ [last]).flatten = message.content ∧
      ∀ part ∈ bodies ++ [last], part ≠ [] ∧ (part.length : ℤ) ≤ limit

/-- The length of the body that some messages make up. -/
def body_length (messages : List (Message R)) : Nat := (messages.map (fun message => message.content.length)).sum

/-- Every message goes out when the sleep so far is the time the body up to its
    end takes at the rate. -/
def Paced (max_rate : ℤ) (effects : List (Effect (Message R))) : Prop :=
  ∀ index message, effects[index]? = some (.send message) →
    slept (effects.take index) = body_length (sent (effects.take (index + 1))) / max_rate

/-- A response that is paced and owes no sleep. -/
structure OnTime (max_rate : ℤ) (effects : List (Effect (Message R))) : Prop where
  paced : Paced max_rate effects
  settled : slept effects = body_length (sent effects) / max_rate

end Specification

section Pacing

variable {max_rate : ℤ}

theorem body_length_append (first second : List (Message R)) :
    body_length (first ++ second) = body_length first + body_length second := by
  simp [body_length]

theorem onTime_nil : OnTime max_rate ([] : List (Effect (Message R))) :=
  ⟨by simp [Paced], by simp [slept, sent, body_length]⟩

theorem send_not_mem_of_sent_nil {added : List (Effect (Message R))} (hsent : sent added = [])
    (message : Message R) : .send message ∉ added := by
  induction added with
  | nil => exact nofun
  | cons effect rest ih =>
    cases effect with
    | sleep seconds => simpa using ih hsent
    | send other => cases hsent

/-- Sleeping for the content of a message before it is sent keeps the response
    on time. -/
theorem OnTime.send {effects added : List (Effect (Message R))} (h : OnTime max_rate effects)
    (hsent : sent added = []) (message : Message R) (hslept : slept added = message.content.length / max_rate) :
    OnTime max_rate (effects ++ added ++ [.send message]) := by
  have hall : sent (effects ++ added ++ [.send message]) = sent effects ++ [message] := by
    simp [sent_append, hsent, sent]
  have htotal : slept (effects ++ added) = body_length (sent effects ++ [message]) / max_rate := by
    rw [slept_append, h.settled, hslept, body_length_append, Nat.cast_add, add_div]
    simp [body_length]
  constructor
  · intro index found hfound
    rcases Nat.lt_or_ge index effects.length with hold | hnew
    · rw [List.append_assoc, List.getElem?_append_left hold] at hfound
      rw [List.append_assoc, List.take_append_of_le_length hold.le, List.take_append_of_le_length hold]
      exact h.paced index found hfound
    rcases Nat.lt_or_ge index (effects ++ added).length with hadded | hlast
    · rw [List.getElem?_append_left hadded, List.getElem?_append_right hnew] at hfound
      exact absurd (List.mem_of_getElem? hfound) (send_not_mem_of_sent_nil hsent found)
    · rw [List.getElem?_append_right hlast] at hfound
      obtain hindex : index - (effects ++ added).length = 0 := by
        have hlt := (List.getElem?_eq_some_iff.mp hfound).1
        simpa using hlt
      obtain rfl : index = (effects ++ added).length := by omega
      rw [List.take_left, List.take_of_length_le (by simp [Nat.add_assoc]), hall, htotal]
  · rw [hall, slept_append, htotal]
    simp [slept]

/-- The messages for the parts of a body of some total length, from an offset
    in it. -/
def flagged (more_body : Bool) (total : Nat) : Nat → List (List UInt8) → List (Message R)
  | _, [] => []
  | offset, part :: rest =>
    body_message part (more_body || offset + part.length < total) ::
      flagged more_body total (offset + part.length) rest

theorem flagged_concat (more_body : Bool) (total offset : Nat) (yielded : List (List UInt8)) (part : List UInt8) :
    (flagged more_body total offset (yielded ++ [part]) : List (Message R)) =
      flagged more_body total offset yielded ++
        [body_message part (more_body || offset + (yielded.flatten.length + part.length) < total)] := by
  induction yielded generalizing offset with
  | nil => simp [flagged]
  | cons first rest ih => simp [flagged, ih, Nat.add_assoc]

/-- The last part has the flag of the message, the others have more to come. -/
theorem flagged_complete (more_body : Bool) (offset : Nat) (bodies : List (List UInt8)) {last : List UInt8}
    (hlast : last ≠ []) :
    (flagged more_body (offset + (bodies ++ [last]).flatten.length) offset (bodies ++ [last]) : List (Message R)) =
      bodies.map (body_message · true) ++ [body_message last more_body] := by
  have hpos := List.length_pos_iff.mpr hlast
  induction bodies generalizing offset with
  | nil => simp [flagged]
  | cons first rest ih =>
    have hmore : offset + first.length < offset + (first :: rest ++ [last]).flatten.length := by
      simp only [List.cons_append, List.flatten_cons, List.flatten_append, List.flatten_nil, List.append_nil,
        List.length_append]
      omega
    have hlength : offset + (first :: rest ++ [last]).flatten.length =
        offset + first.length + (rest ++ [last]).flatten.length := by
      simp [Nat.add_assoc]
    rw [List.cons_append, flagged, ← List.cons_append, decide_eq_true hmore, Bool.or_true, hlength, ih]
    rfl

variable {checks : Checks}

/-- The invariant of the loop over the parts of a body. -/
structure Sending (earlier : List (Message R)) (body : List UInt8) (more_body : Bool) (max_rate : ℤ)
    (yielded : List (List UInt8)) (sent_bytes : Nat) (effects : List (Effect (Message R))) : Prop where
  sent_bytes_eq : sent_bytes = yielded.flatten.length
  sent_eq : sent effects = earlier ++ flagged more_body body.length 0 yielded
  on_time : OnTime max_rate effects

theorem Sending.part {earlier : List (Message R)} {body : List UInt8} {more_body : Bool}
    {yielded : List (List UInt8)} {sent_bytes : Nat} {effects added : List (Effect (Message R))}
    (h : Sending earlier body more_body max_rate yielded sent_bytes effects) (hsent : sent added = [])
    {part : List UInt8} (hslept : slept added = part.length / max_rate) {self : Transcript (Message R)}
    (hself : self.effects = effects ++ added) :
    ∃ next later, (send_part body more_body sent_bytes part).run self = (.ok next, later) ∧
      Sending earlier body more_body max_rate (yielded ++ [part]) next later.effects := by
  refine ⟨_, _, rfl, ?_, ?_, ?_⟩
  · simp [h.sent_bytes_eq]
  · simp only [hself]
    rw [sent_append, sent_append, hsent, List.append_nil, h.sent_eq, List.append_assoc, flagged_concat,
      h.sent_bytes_eq, Nat.zero_add]
    rfl
  · simp only [hself]
    exact h.on_time.send hsent _ (by simpa [Message.content, body_message] using hslept)

/-- A body that is not empty goes out in parts and on time. -/
theorem send_limited_body_run (streamer : ResponseStreamer) (hunaborted : checks.Unaborted)
    (hrate : 1 ≤ max_rate) {body : List UInt8} (hbody : body ≠ []) (more_body : Bool)
    {self : Transcript (Message R)} (htime : OnTime max_rate self.effects) :
    ∃ later bodies last, (send_limited_body streamer checks max_rate body more_body).run self = (.ok (), later) ∧
      sent later.effects = sent self.effects ++
        (bodies.map (body_message · true) ++ [body_message last more_body]) ∧
      (bodies ++ [last]).flatten = body ∧
      (∀ part ∈ bodies ++ [last], part ≠ [] ∧ (part.length : ℤ) ≤ min streamer.chunk_size max_rate) ∧
      OnTime max_rate later.effects := by
  have hinit : Sending (sent self.effects) body more_body max_rate [] 0 self.effects :=
    ⟨rfl, by simp [flagged], htime⟩
  obtain ⟨sent_bytes, later, yielded, hyield, hsending, hflatten, hparts⟩ :=
    yield_limited_chunks_run hunaborted streamer body (by omega : 0 < max_rate)
      (Sending (sent self.effects) body more_body max_rate)
      (fun _ _ _ _ _ h hsent hslept _ hself => h.part hsent hslept hself) hinit
  have hbytes : sent_bytes ≠ 0 := by
    rw [hsending.sent_bytes_eq, hflatten]
    exact fun hzero => hbody (List.length_eq_zero_iff.mp hzero)
  rcases List.eq_nil_or_concat yielded with rfl | ⟨bodies, last, rfl⟩
  · exact absurd hflatten.symm hbody
  refine ⟨later, bodies, last, ?_, ?_, by simpa using hflatten, by simpa using hparts, hsending.on_time⟩
  · rw [send_limited_body, Streaming.run_bind_of_ok hyield, if_neg hbytes]
    rfl
  · have hflagged := flagged_complete (R := R) more_body 0 bodies (hparts last (by simp)).1
    rw [hsending.sent_eq, ← hflagged]
    simp [← hflatten]

theorem send_with_limit_run (streamer : ResponseStreamer) (hunaborted : checks.Unaborted)
    (hrate : 1 ≤ max_rate) (message : Message R) {self : Transcript (Message R)}
    (htime : OnTime max_rate self.effects) :
    ∃ later group, (send_with_limit streamer checks max_rate message).run self = (.ok (), later) ∧
      sent later.effects = sent self.effects ++ group ∧
      Forwarded (min streamer.chunk_size max_rate) message group ∧ OnTime max_rate later.effects := by
  have hwhole : message.content = [] →
      ∃ later group, (Streaming.perform (.send message)).run self = (.ok (), later) ∧
        sent later.effects = sent self.effects ++ group ∧
        Forwarded (min streamer.chunk_size max_rate) message group ∧ OnTime max_rate later.effects := by
    intro hempty
    have hlater := htime.send (show sent [] = [] from rfl) message (by simp [hempty, slept])
    rw [List.append_nil] at hlater
    exact ⟨_, [message], rfl, by simp [sent_append, sent], by simp [Forwarded, hempty], hlater⟩
  unfold send_with_limit
  split
  · next htype => exact hwhole (if_neg htype)
  · next htype =>
    have hcontent : message.content = message.body.getD [] := if_pos (not_not.mp htype)
    simp only
    split
    · next hempty => exact hwhole (hcontent.trans (List.isEmpty_iff.mp hempty))
    · next hbody =>
      rw [List.isEmpty_iff] at hbody
      obtain ⟨later, bodies, last, hrun, hsent, hflatten, hparts, hlater⟩ :=
        send_limited_body_run streamer hunaborted hrate hbody (message.more_body.getD false) htime
      refine ⟨later, _, hrun, hsent, ?_, hlater⟩
      rw [Forwarded, if_neg (hcontent ▸ hbody)]
      exact ⟨bodies, last, rfl, hcontent ▸ hflatten, hparts⟩

end Pacing

/-- The deliveries of several messages add up. -/
theorem deliver_run (streamer : ResponseStreamer) {checks : Checks} {max_rate : ℤ} (hunaborted : checks.Unaborted)
    (hrate : 1 ≤ max_rate) (messages : List (Message R)) {self : Transcript (Message R)}
    (htime : OnTime max_rate self.effects) :
    ∃ later groups, (deliver streamer checks max_rate messages).run self = (.ok (), later) ∧
      sent later.effects = sent self.effects ++ groups.flatten ∧
      List.Forall₂ (Forwarded (min streamer.chunk_size max_rate)) messages groups ∧
      OnTime max_rate later.effects := by
  induction messages generalizing self with
  | nil => exact ⟨self, [], rfl, by simp, .nil, htime⟩
  | cons message rest ih =>
    obtain ⟨middle, group, hmessage, hgroup, hforwarded, hmiddle⟩ :=
      send_with_limit_run streamer hunaborted hrate message htime
    obtain ⟨later, groups, hrest, hgroups, hall, hlater⟩ := ih hmiddle
    refine ⟨later, group :: groups, ?_, ?_, .cons hforwarded hall, hlater⟩
    · rw [deliver, Streaming.run_bind_of_ok hmessage, hrest]
    · rw [hgroups, hgroup, List.append_assoc, List.flatten_cons]

/-- Without an abort a limited response is the response of the application: its
    messages in order, each body that is not empty in parts, and every part sent
    when the sleep so far is the time that the body up to its end takes at the
    rate. -/
theorem deliver_preserves_and_paces (streamer : ResponseStreamer) {checks : Checks}
    (hunaborted : checks.Unaborted) {max_rate : ℤ} (hrate : 1 ≤ max_rate) (messages : List (Message R)) :
    ∃ transcript groups,
      (deliver streamer checks max_rate messages).run ⟨0, []⟩ = (.ok (), transcript) ∧
      sent transcript.effects = groups.flatten ∧
      List.Forall₂ (Forwarded (min streamer.chunk_size max_rate)) messages groups ∧
      Paced max_rate transcript.effects := by
  obtain ⟨transcript, groups, hrun, hsent, hforwarded, htime⟩ :=
    deliver_run streamer hunaborted hrate messages (show OnTime max_rate (⟨0, []⟩ : Transcript (Message R)).effects
      from onTime_nil)
  exact ⟨transcript, groups, hrun, hsent, hforwarded, htime.paced⟩

/-- No abort, and a shutdown that every other question finds begun. -/
def half_polled : Checks := ⟨some (fun _ => false), some (fun n => n % 2 = 0)⟩

/-- A start, a body of 25 bytes, and an empty end. -/
def report : List (Message Unit) :=
  [⟨"http.response.start", none, none, .empty⟩,
    ⟨"http.response.body", some (List.replicate 25 120), some true, .empty⟩,
    ⟨"http.response.body", none, none, .empty⟩]

theorem report_delivered :
    ∃ transcript groups,
      (deliver ⟨10, by decide⟩ half_polled 10 report).run ⟨0, []⟩ = (.ok (), transcript) ∧
      sent transcript.effects = groups.flatten ∧
      List.Forall₂ (Forwarded (min 10 10)) report groups ∧ Paced 10 transcript.effects := by
  have hunaborted : half_polled.Unaborted := by
    rintro abort_check ⟨⟩ n
    rfl
  exact deliver_preserves_and_paces ⟨10, by decide⟩ hunaborted (by decide) report

end response_bandwidth_limiter.middleware

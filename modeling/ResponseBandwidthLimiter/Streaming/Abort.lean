import ResponseBandwidthLimiter.Streaming

namespace response_bandwidth_limiter.streaming

variable {M : Type}

/-- Answers to the two questions about a shutdown that may depend on all that was
    done so far, each none where the caller gives none. -/
structure Oracle (M : Type) where
  abort_check : Option (Transcript M → Bool)
  poll_check : Option (Transcript M → Bool)

/-- The answer of an oracle. -/
def Streaming.inquire (question : Transcript M → Bool) : Streaming M Bool :=
  ⟨fun self => (.ok (question self), { self with checks := self.checks + 1 })⟩

namespace Oracle

def check_abort (self : Oracle M) : Streaming M Unit :=
  match self.abort_check with
  | none => pure ()
  | some abort_check => do
    if ← .inquire abort_check then
      .raise (.streaming_aborted_error "Response streaming was aborted.")

def sleep_slices (self : Oracle M) (remaining : ℚ) : Streaming M Unit :=
  if 0 < remaining then do
    let sleep_duration := min abort_poll_interval remaining
    .perform (.sleep sleep_duration)
    self.check_abort
    self.sleep_slices (remaining - sleep_duration)
  else pure ()
termination_by ⌈remaining / abort_poll_interval⌉.toNat
decreasing_by exact sleep_slices_decreasing ‹0 < remaining›

def sleep_with_abort_check (self : Oracle M) (duration : ℚ) : Streaming M Unit :=
  if duration ≤ 0 then pure ()
  else
    match self.abort_check with
    | none => .perform (.sleep duration)
    | some _ => do
      let polled ← self.poll_check.elim (pure false) .inquire
      if polled then self.sleep_slices duration
      else do
        .perform (.sleep duration)
        self.check_abort

def yield_parts {S : Type} (self : Oracle M) (chunk : List UInt8) (max_rate : ℤ) (effective_chunk_size : Nat)
    (consume : S → List UInt8 → Streaming M S) : List Nat → S → Streaming M S
  | [], state => pure state
  | index :: rest, state => do
    self.check_abort
    let part := (chunk.drop index).take effective_chunk_size
    self.sleep_with_abort_check (part.length / max_rate)
    self.check_abort
    let state ← consume state part
    self.yield_parts chunk max_rate effective_chunk_size consume rest state

def yield_limited_chunks {S : Type} (self : Oracle M) (streamer : ResponseStreamer) (chunk : List UInt8)
    (max_rate : ℤ) (consume : S → List UInt8 → Streaming M S) (state : S) : Streaming M S :=
  if max_rate ≤ 0 then .raise (.value_error "max_rate must be greater than 0.")
  else
    self.yield_parts chunk max_rate (effective_chunk_size streamer max_rate) consume
      (range chunk.length (effective_chunk_size streamer max_rate)) state

end Oracle

/-- Answers that depend on the number of questions alone. -/
def Checks.oracle (self : Checks) : Oracle M where
  abort_check := self.abort_check.map (fun check self => check self.checks)
  poll_check := self.poll_check.map (fun check self => check self.checks)

section Numbered

variable (checks : Checks)

theorem check_abort_oracle : (checks.oracle : Oracle M).check_abort = check_abort checks := by
  unfold Oracle.check_abort check_abort Checks.oracle
  cases checks.abort_check <;> rfl

theorem sleep_slices_oracle (remaining : ℚ) :
    (checks.oracle : Oracle M).sleep_slices remaining = sleep_slices checks remaining := by
  induction remaining using sleep_slices.induct with
  | case1 remaining hpos slice ih =>
    rw [Oracle.sleep_slices, sleep_slices, if_pos hpos, if_pos hpos, check_abort_oracle]
    simp only [slice] at ih
    dsimp only
    rw [ih]
  | case2 remaining hpos => rw [Oracle.sleep_slices, sleep_slices, if_neg hpos, if_neg hpos]

theorem sleep_with_abort_check_oracle (duration : ℚ) :
    (checks.oracle : Oracle M).sleep_with_abort_check duration = sleep_with_abort_check checks duration := by
  unfold Oracle.sleep_with_abort_check sleep_with_abort_check
  rw [check_abort_oracle, sleep_slices_oracle]
  unfold Checks.oracle
  cases checks.abort_check <;> cases checks.poll_check <;> rfl

/-- The stream whose questions are numbered is the one with an oracle that counts
    them. -/
theorem yield_limited_chunks_oracle {S : Type} (streamer : ResponseStreamer) (chunk : List UInt8) (max_rate : ℤ)
    (consume : S → List UInt8 → Streaming M S) (state : S) :
    checks.oracle.yield_limited_chunks streamer chunk max_rate consume state =
      yield_limited_chunks streamer checks chunk max_rate consume state := by
  have hparts : ∀ indexes state, checks.oracle.yield_parts chunk max_rate (effective_chunk_size streamer max_rate)
      consume indexes state =
        yield_parts checks chunk max_rate (effective_chunk_size streamer max_rate) consume indexes state := by
    intro indexes
    induction indexes with
    | nil => exact fun _ => rfl
    | cons index rest ih =>
      intro state
      simp only [Oracle.yield_parts, yield_parts, check_abort_oracle, sleep_with_abort_check_oracle, ih]
  simp only [Oracle.yield_limited_chunks, yield_limited_chunks, hparts]

end Numbered

/-- Flags that may be raised while something is being done: their values are told
    by how much of it is over. -/
def flags (abort poll : Nat → Bool) : Oracle M where
  abort_check := some (fun self => abort self.effects.length)
  poll_check := some (fun self => poll self.effects.length)

/-- A body handed to a consumer part by part. -/
def yield_all (streamer : ResponseStreamer) (oracle : Oracle (List UInt8)) (body : List UInt8) (max_rate : ℤ) :
    Streaming (List UInt8) Unit :=
  oracle.yield_limited_chunks streamer body max_rate (fun _ part => .perform (.send part)) ()

def Effect.is_sleep : Effect M → Bool
  | .sleep _ => true
  | .send _ => false

/-- How much was over when the current wait began: everything up to the last
    send. -/
def wait_start (effects : List (Effect M)) : Nat := (effects.reverse.dropWhile Effect.is_sleep).length

@[simp] theorem wait_start_nil : wait_start ([] : List (Effect M)) = 0 := rfl

@[simp] theorem wait_start_sleep (effects : List (Effect M)) (seconds : ℚ) :
    wait_start (effects ++ [.sleep seconds]) = wait_start effects := by
  simp only [wait_start, List.reverse_append, List.reverse_singleton, List.singleton_append]
  rw [List.dropWhile_cons_of_pos rfl]

@[simp] theorem wait_start_send (effects : List (Effect M)) (message : M) :
    wait_start (effects ++ [.send message]) = effects.length + 1 := by
  simp only [wait_start, List.reverse_append, List.reverse_singleton, List.singleton_append]
  rw [List.dropWhile_cons_of_neg Bool.false_ne_true, List.length_cons, List.length_reverse]

/-- Nothing was begun after the abort, and no sleep was longer than it may be. -/
structure Prompt (abort poll : Nat → Bool) (effects : List (Effect M)) : Prop where
  begun : ∀ index effect, effects[index]? = some effect → abort index = false
  sleeps : ∀ index seconds, effects[index]? = some (.sleep seconds) →
    seconds ≤ 1 ∧ (poll (wait_start (effects.take index)) = true → seconds ≤ abort_poll_interval)

section Flags

variable {abort poll : Nat → Bool} {effects : List (Effect M)}

theorem Prompt.nil : Prompt abort poll ([] : List (Effect M)) := ⟨by simp, by simp⟩

theorem getElem?_concat {A : Type*} {list : List A} {last element : A} {index : Nat}
    (h : (list ++ [last])[index]? = some element) :
    list[index]? = some element ∨ (index = list.length ∧ element = last) := by
  rw [List.getElem?_append] at h
  split at h
  · exact Or.inl h
  · next hge =>
    rw [List.getElem?_singleton] at h
    split at h
    · exact Or.inr ⟨by omega, (Option.some.inj h).symm⟩
    · cases h

theorem Prompt.concat (h : Prompt abort poll effects) {effect : Effect M} (hbegun : abort effects.length = false)
    (hsleep : ∀ seconds, effect = .sleep seconds →
      seconds ≤ 1 ∧ (poll (wait_start effects) = true → seconds ≤ abort_poll_interval)) :
    Prompt abort poll (effects ++ [effect]) where
  begun index found hfound := by
    rcases getElem?_concat hfound with hold | ⟨rfl, -⟩
    · exact h.begun index found hold
    · exact hbegun
  sleeps index seconds hfound := by
    rcases getElem?_concat hfound with hold | ⟨rfl, heq⟩
    · have hlt : index < effects.length := (List.getElem?_eq_some_iff.mp hold).1
      rw [List.take_append_of_le_length hlt.le]
      exact h.sleeps index seconds hold
    · rw [List.take_left]
      exact hsleep seconds heq.symm

/-- What a wait leaves behind: it sends nothing, and it ends early for an abort
    alone. -/
structure Waited (abort poll : Nat → Bool) (before later : List (Effect M)) (outcome : Except StreamingError Unit) :
    Prop where
  prompt : Prompt abort poll later
  sent_eq : sent later = sent before
  start : wait_start later = wait_start before
  outcome_eq : (outcome = .ok () ∧ abort later.length = false) ∨
    (outcome = .error aborted_error ∧ abort later.length = true)

theorem check_abort_flags (abort poll : Nat → Bool) (self : Transcript M) :
    ((flags abort poll).check_abort).run self =
      (if abort self.effects.length then .error aborted_error else .ok (),
        { self with checks := self.checks + 1 }) := by
  have hask : (Streaming.inquire (fun self : Transcript M => abort self.effects.length)).run self =
      (.ok (abort self.effects.length), { self with checks := self.checks + 1 }) := rfl
  change (Streaming.inquire _ >>= _).run self = _
  rw [Streaming.run_bind_of_ok hask]
  cases abort self.effects.length <;> rfl

/-- A check right after a sleep ends the wait early for an abort. -/
theorem Prompt.waited_sleep (h : Prompt abort poll effects) (hbegun : abort effects.length = false) (seconds : ℚ)
    (hsleep : seconds ≤ 1 ∧ (poll (wait_start effects) = true → seconds ≤ abort_poll_interval)) :
    Waited abort poll effects (effects ++ [.sleep seconds])
      (if abort (effects ++ [Effect.sleep (M := M) seconds]).length then .error aborted_error else .ok ()) where
  prompt := h.concat hbegun (by rintro _ ⟨rfl⟩; exact hsleep)
  sent_eq := by rw [sent_append, sent, sent, List.append_nil]
  start := wait_start_sleep effects seconds
  outcome_eq := by cases abort (effects ++ [Effect.sleep seconds]).length <;> simp

theorem sleep_slices_flags (remaining : ℚ) (self : Transcript M) (h : Prompt abort poll self.effects)
    (hbegun : abort self.effects.length = false) :
    ∃ outcome later, ((flags abort poll).sleep_slices remaining).run self = (outcome, later) ∧
      Waited abort poll self.effects later.effects outcome := by
  induction remaining using sleep_slices.induct generalizing self with
  | case1 remaining hpos slice ih =>
    have hslice : slice ≤ abort_poll_interval := min_le_left _ _
    have hperform : (Streaming.perform (.sleep slice)).run self =
        (.ok (), { self with effects := self.effects ++ [.sleep slice] }) := rfl
    have hwaited := h.waited_sleep hbegun slice
      ⟨hslice.trans (by norm_num [abort_poll_interval]), fun _ => hslice⟩
    have hcheck := check_abort_flags abort poll { self with effects := self.effects ++ [.sleep slice] }
    rw [Oracle.sleep_slices, if_pos hpos, Streaming.run_bind_of_ok hperform]
    cases habort : abort (self.effects ++ [Effect.sleep slice]).length with
    | true =>
      simp only [habort, if_true] at hwaited hcheck
      exact ⟨_, _, Streaming.run_bind_of_error hcheck, hwaited⟩
    | false =>
      simp only [habort, Bool.false_eq_true, if_false] at hwaited hcheck
      obtain ⟨outcome, later, hrest, hlater⟩ := ih
        { self with checks := self.checks + 1, effects := self.effects ++ [.sleep slice] } hwaited.prompt habort
      refine ⟨outcome, later, ?_, hlater.prompt, hlater.sent_eq.trans hwaited.sent_eq,
        hlater.start.trans hwaited.start, hlater.outcome_eq⟩
      rw [Streaming.run_bind_of_ok hcheck]
      exact hrest
  | case2 remaining hpos =>
    refine ⟨.ok (), self, ?_, h, rfl, rfl, Or.inl ⟨rfl, hbegun⟩⟩
    rw [Oracle.sleep_slices, if_neg hpos]
    rfl

/-- A wait of at most a second keeps the promise, whichever way it is taken. -/
theorem sleep_with_abort_check_flags {duration : ℚ} (hduration : duration ≤ 1) (self : Transcript M)
    (h : Prompt abort poll self.effects) (hbegun : abort self.effects.length = false)
    (hstart : wait_start self.effects = self.effects.length) :
    ∃ outcome later, ((flags abort poll).sleep_with_abort_check duration).run self = (outcome, later) ∧
      Waited abort poll self.effects later.effects outcome := by
  rw [Oracle.sleep_with_abort_check]
  split
  · exact ⟨.ok (), self, rfl, h, rfl, rfl, Or.inl ⟨rfl, hbegun⟩⟩
  have hasked : ((flags abort poll).poll_check.elim (pure false) Streaming.inquire).run self =
      (.ok (poll self.effects.length), { self with checks := self.checks + 1 }) := rfl
  change ∃ outcome later, (_ >>= _ : Streaming M Unit).run self = (outcome, later) ∧ _
  rw [Streaming.run_bind_of_ok hasked]
  cases hpoll : poll self.effects.length with
  | true => exact sleep_slices_flags duration { self with checks := self.checks + 1 } h hbegun
  | false =>
    have hwaited := h.waited_sleep hbegun duration
      ⟨hduration, fun hpolled => by rw [hstart, hpoll] at hpolled; cases hpolled⟩
    exact ⟨_, _, check_abort_flags abort poll
      { self with checks := self.checks + 1, effects := self.effects ++ [.sleep duration] }, hwaited⟩

/-- The parts that were sent come first, and what is not sent is left out for an
    abort. -/
theorem yield_parts_flags (chunk : List UInt8) {max_rate : ℤ} (hrate : 1 ≤ max_rate) {size : Nat}
    (hsize : (size : ℤ) ≤ max_rate) (indexes : List Nat) (self : Transcript (List UInt8))
    (h : Prompt abort poll self.effects) (hstart : wait_start self.effects = self.effects.length) :
    ∃ outcome later yielded remaining,
      ((flags abort poll).yield_parts chunk max_rate size (fun _ part => .perform (.send part)) indexes ()).run
        self =
        (outcome, later) ∧ Prompt abort poll later.effects ∧ parts chunk size indexes = yielded ++ remaining ∧
      sent later.effects = sent self.effects ++ yielded ∧
      ((outcome = .ok () ∧ remaining = []) ∨
        (outcome = .error aborted_error ∧ remaining ≠ [] ∧ abort later.effects.length = true)) := by
  induction indexes generalizing self with
  | nil => exact ⟨.ok (), self, [], [], rfl, h, rfl, by simp, Or.inl ⟨rfl, rfl⟩⟩
  | cons index rest ih =>
    have hcut : parts chunk size (index :: rest) = (chunk.drop index).take size :: parts chunk size rest := rfl
    have hne : parts chunk size (index :: rest) ≠ [] := by rw [hcut]; exact List.cons_ne_nil _ _
    have hfirst := check_abort_flags abort poll self
    rw [Oracle.yield_parts]
    cases hbegun : abort self.effects.length with
    | true =>
      rw [hbegun, if_pos rfl] at hfirst
      exact ⟨_, _, [], _, Streaming.run_bind_of_error hfirst, h, rfl, by simp, Or.inr ⟨rfl, hne, hbegun⟩⟩
    | false =>
      rw [hbegun, if_neg Bool.false_ne_true] at hfirst
      rw [Streaming.run_bind_of_ok hfirst]
      have hduration : (((chunk.drop index).take size).length / max_rate : ℚ) ≤ 1 := by
        rw [div_le_one (by exact_mod_cast hrate)]
        have hlength : (((chunk.drop index).take size).length : ℤ) ≤ max_rate :=
          (Int.ofNat_le.mpr (List.length_take_le _ _)).trans hsize
        exact_mod_cast hlength
      obtain ⟨outcome, asleep, hsleep, hwaited⟩ := sleep_with_abort_check_flags hduration
        { self with checks := self.checks + 1 } h hbegun hstart
      rcases hwaited.outcome_eq with ⟨rfl, hawake⟩ | ⟨rfl, habort⟩
      · have hsecond := check_abort_flags abort poll asleep
        rw [hawake, if_neg Bool.false_ne_true] at hsecond
        have hsend : (Streaming.perform (.send ((chunk.drop index).take size))).run
            { asleep with checks := asleep.checks + 1 } = (.ok (), { asleep with
              checks := asleep.checks + 1
              effects := asleep.effects ++ [.send ((chunk.drop index).take size)] }) := rfl
        obtain ⟨outcome, later, yielded, remaining, hrest, hprompt, hparts, hsent, hend⟩ := ih
          { asleep with
            checks := asleep.checks + 1, effects := asleep.effects ++ [.send ((chunk.drop index).take size)] }
          (hwaited.prompt.concat hawake nofun) (by simp)
        refine ⟨outcome, later, (chunk.drop index).take size :: yielded, remaining, ?_, hprompt, ?_, ?_, hend⟩
        · rw [Streaming.run_bind_of_ok hsleep, Streaming.run_bind_of_ok hsecond, Streaming.run_bind_of_ok hsend]
          exact hrest
        · rw [hcut, hparts, List.cons_append]
        · rw [hsent, sent_append, hwaited.sent_eq, List.append_assoc]
          rfl
      · refine ⟨_, asleep, [], _, Streaming.run_bind_of_error hsleep, hwaited.prompt, rfl, ?_,
          Or.inr ⟨rfl, hne, habort⟩⟩
        rw [hwaited.sent_eq, List.append_nil]

/-- What an abort leaves of a stream: what was yielded is the beginning of the
    body, nothing is yielded after the abort, of the sleeps at most the one it
    fell into ends after it, none is longer than a second, or than a poll
    interval where the poll was on when the wait began, and the error is left
    out only if the whole body had been yielded. -/
structure StopsPromptly (abort poll : Nat → Bool) (body : List UInt8) (outcome : Except StreamingError Unit)
    (effects : List (Effect (List UInt8))) : Prop where
  beginning : (sent effects).flatten <+: body
  yields : ∀ index part, effects[index]? = some (.send part) → abort index = false
  last_sleep : ∀ first second first_seconds second_seconds, effects[first]? = some (.sleep first_seconds) →
    effects[second]? = some (.sleep second_seconds) → abort (first + 1) = true → abort (second + 1) = true →
      first = second
  sleeps : ∀ index seconds, effects[index]? = some (.sleep seconds) → abort index = false ∧ seconds ≤ 1 ∧
    (poll (wait_start (effects.take index)) = true → seconds ≤ abort_poll_interval)
  outcome_eq : (outcome = .ok () ∧ (sent effects).flatten = body) ∨
    (outcome = .error aborted_error ∧ (sent effects).flatten ≠ body ∧ abort effects.length = true)

/-- A prompt run lets at most one sleep end after the abort. -/
theorem Prompt.last_sleep (h : Prompt abort poll effects) (habort : Monotone abort) {first second : Nat}
    {effect other : Effect M} (hfirst : effects[first]? = some effect) (hsecond : effects[second]? = some other)
    (hfirst_over : abort (first + 1) = true) (hsecond_over : abort (second + 1) = true) : first = second := by
  have hbegun {index earlier : Nat} {effect : Effect M} (hfound : effects[index]? = some effect)
      (hover : abort (earlier + 1) = true) : index ≤ earlier := by
    by_contra hlt
    have hlater : abort index = true := Bool.eq_true_of_true_le (hover ▸ habort (Nat.succ_le_of_lt (not_le.mp hlt)))
    rw [h.begun index _ hfound] at hlater
    cases hlater
  exact Nat.le_antisymm (hbegun hfirst hsecond_over) (hbegun hsecond hfirst_over)

/-- Whenever an abort is asked for and stays so, the stream stops promptly. -/
theorem yield_all_stops_promptly (streamer : ResponseStreamer) (body : List UInt8) {max_rate : ℤ}
    (hrate : 1 ≤ max_rate) {abort : Nat → Bool} (habort : Monotone abort) (poll : Nat → Bool) :
    ∃ outcome later, (yield_all streamer (flags abort poll) body max_rate).run ⟨0, []⟩ = (outcome, later) ∧
      StopsPromptly abort poll body outcome later.effects := by
  have hsize := effective_chunk_size_eq streamer (show 0 < max_rate by omega)
  have hpos := streamer.chunk_size_pos
  obtain ⟨hflatten, hparts⟩ := parts_range body (show 0 < effective_chunk_size streamer max_rate by omega)
  obtain ⟨outcome, later, yielded, remaining, hrun, hprompt, hcut, hsent, hend⟩ :=
    yield_parts_flags body hrate (hsize.trans_le (min_le_right _ _))
      (range body.length (effective_chunk_size streamer max_rate)) ⟨0, []⟩ (Prompt.nil : Prompt abort poll _)
      rfl
  rw [show sent (⟨0, []⟩ : Transcript (List UInt8)).effects = [] from rfl, List.nil_append] at hsent
  have hbody : body = yielded.flatten ++ remaining.flatten := by rw [← hflatten, hcut, List.flatten_append]
  refine ⟨outcome, later, ?_, ⟨?_, fun index part => hprompt.begun index _,
    fun _ _ _ _ hfirst hsecond => hprompt.last_sleep habort hfirst hsecond,
    fun index seconds hfound => ⟨hprompt.begun index _ hfound, hprompt.sleeps index seconds hfound⟩, ?_⟩⟩
  · rw [yield_all, Oracle.yield_limited_chunks, if_neg (by omega)]
    exact hrun
  · rw [hsent, hbody]
    exact List.prefix_append _ _
  · rcases hend with ⟨rfl, rfl⟩ | ⟨rfl, hne, hover⟩
    · exact Or.inl ⟨rfl, by rw [hsent, hbody, List.flatten_nil, List.append_nil]⟩
    · refine Or.inr ⟨rfl, fun hwhole => ?_, hover⟩
      obtain ⟨part, rest, rfl⟩ := List.exists_cons_of_ne_nil hne
      have hpart : part ≠ [] := (hparts part (by rw [hcut]; simp)).1
      rw [hsent, hbody, List.flatten_cons, List.self_eq_append_right, List.append_eq_nil_iff] at hwhole
      exact hpart hwhole.1

/-- An abort during the third slice of the second part's wait. -/
theorem polled_download_stops :
    ∃ outcome later, (yield_all ⟨4, by decide⟩ (flags (fun moment => decide (5 ≤ moment))
        (fun moment => decide (2 ≤ moment))) [1, 2, 3, 4, 5, 6, 7, 8, 9, 10] 5).run ⟨0, []⟩ = (outcome, later) ∧
      StopsPromptly (fun moment => decide (5 ≤ moment)) (fun moment => decide (2 ≤ moment))
        [1, 2, 3, 4, 5, 6, 7, 8, 9, 10] outcome later.effects :=
  yield_all_stops_promptly _ _ (by decide)
    (fun earlier later hle => by
      simp only [Bool.le_iff_imp, decide_eq_true_eq]
      omega) _

end Flags

end response_bandwidth_limiter.streaming

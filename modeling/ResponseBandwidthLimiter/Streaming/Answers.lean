import ResponseBandwidthLimiter.Streaming

namespace response_bandwidth_limiter.streaming

variable {M A B : Type} {abort poll : Nat → Bool}

/-- Some question about an abort between two moments was answered yes. -/
def Answered (abort : Nat → Bool) (before later : Transcript M) : Prop :=
  ∃ question, before.checks ≤ question ∧ question < later.checks ∧ abort question = true

theorem Answered.widen {before first later last : Transcript M} (h : Answered abort first later)
    (hbefore : before.checks ≤ first.checks) (hlast : later.checks ≤ last.checks) : Answered abort before last := by
  obtain ⟨question, hlow, hhigh, hanswer⟩ := h
  exact ⟨question, hbefore.trans hlow, hhigh.trans_le hlast, hanswer⟩

/-- Where the abort stays, every later answer is yes. -/
theorem Answered.stays (habort : Monotone abort) {before later : Transcript M} (h : Answered abort before later)
    {question : Nat} (hle : later.checks ≤ question) : abort question = true := by
  obtain ⟨earlier, -, hlt, hanswer⟩ := h
  exact Bool.eq_true_of_true_le (hanswer ▸ habort (hlt.le.trans hle))

/-- What a wait does, whatever it is answered: it sends nothing, and only an
    abort that it was told of ends it early. -/
structure Waits (abort : Nat → Bool) (before later : Transcript M) (outcome : Except StreamingError Unit) :
    Prop where
  checks : before.checks ≤ later.checks
  sent_eq : sent later.effects = sent before.effects
  outcome_eq : outcome = .ok () ∨ (outcome = .error aborted_error ∧ Answered abort before later)

theorem check_abort_asked (abort poll : Nat → Bool) (self : Transcript M) :
    (check_abort ⟨some abort, some poll⟩).run self =
      (if abort self.checks then .error aborted_error else .ok (), { self with checks := self.checks + 1 }) := by
  have hask : (Streaming.ask abort).run self =
      (.ok (abort self.checks), { self with checks := self.checks + 1 }) := rfl
  change (Streaming.ask abort >>= _).run self = _
  rw [Streaming.run_bind_of_ok hask]
  cases abort self.checks <;> rfl

theorem check_abort_waits (abort poll : Nat → Bool) (self : Transcript M) :
    ∃ outcome later, (check_abort ⟨some abort, some poll⟩).run self = (outcome, later) ∧
      Waits abort self later outcome := by
  refine ⟨_, _, check_abort_asked abort poll self, Nat.le_succ _, rfl, ?_⟩
  cases hanswer : abort self.checks with
  | true => exact Or.inr ⟨rfl, self.checks, le_refl _, Nat.lt_succ_self _, hanswer⟩
  | false => exact Or.inl rfl

/-- One wait after the other. -/
theorem Waits.bind {first second : Streaming M Unit} {self middle : Transcript M}
    {outcome : Except StreamingError Unit}
    (hrun : first.run self = (outcome, middle)) (hfirst : Waits abort self middle outcome)
    (hsecond : ∃ outcome later, second.run middle = (outcome, later) ∧ Waits abort middle later outcome) :
    ∃ outcome later, (first >>= fun _ => second).run self = (outcome, later) ∧ Waits abort self later outcome := by
  rcases hfirst.outcome_eq with rfl | ⟨rfl, hanswered⟩
  · obtain ⟨outcome, later, hlater, hwaits⟩ := hsecond
    refine ⟨outcome, later, (Streaming.run_bind_of_ok hrun).trans hlater, hfirst.checks.trans hwaits.checks,
      hwaits.sent_eq.trans hfirst.sent_eq, hwaits.outcome_eq.imp_right fun ⟨heq, hanswered⟩ => ⟨heq, ?_⟩⟩
    exact hanswered.widen hfirst.checks (le_refl _)
  · exact ⟨_, _, Streaming.run_bind_of_error hrun, hfirst.checks, hfirst.sent_eq, Or.inr ⟨rfl, hanswered⟩⟩

theorem sleep_waits (abort : Nat → Bool) (self : Transcript M) (seconds : ℚ) :
    (Streaming.perform (.sleep seconds)).run self =
        (.ok (), { self with effects := self.effects ++ [.sleep seconds] }) ∧
      Waits abort self { self with effects := self.effects ++ [.sleep seconds] } (.ok ()) :=
  ⟨rfl, le_refl _, by simp only [sent_append, sent, List.append_nil], Or.inl rfl⟩

theorem sleep_slices_waits (remaining : ℚ) (self : Transcript M) :
    ∃ outcome later, (sleep_slices ⟨some abort, some poll⟩ remaining).run self = (outcome, later) ∧
      Waits abort self later outcome := by
  induction remaining using sleep_slices.induct generalizing self with
  | case1 remaining hpos slice ih =>
    obtain ⟨hsleep, hslept⟩ := sleep_waits abort self slice
    obtain ⟨outcome, middle, hcheck, hchecked⟩ := check_abort_waits abort poll
      { self with effects := self.effects ++ [.sleep slice] }
    rw [sleep_slices, if_pos hpos]
    exact hslept.bind hsleep (hchecked.bind hcheck (ih middle))
  | case2 remaining hpos =>
    rw [sleep_slices, if_neg hpos]
    exact ⟨.ok (), self, rfl, le_refl _, rfl, Or.inl rfl⟩

theorem sleep_with_abort_check_waits (duration : ℚ) (self : Transcript M) :
    ∃ outcome later, (sleep_with_abort_check ⟨some abort, some poll⟩ duration).run self = (outcome, later) ∧
      Waits abort self later outcome := by
  rw [sleep_with_abort_check]
  split
  · exact ⟨.ok (), self, rfl, le_refl _, rfl, Or.inl rfl⟩
  have hasked : ((some poll).elim (pure false) Streaming.ask).run self =
      (.ok (poll self.checks), { self with checks := self.checks + 1 }) := rfl
  change ∃ outcome later, (_ >>= _ : Streaming M Unit).run self = (outcome, later) ∧ _
  rw [Streaming.run_bind_of_ok hasked]
  have hafter : ∃ outcome later, (if poll self.checks then sleep_slices ⟨some abort, some poll⟩ duration
        else do
          .perform (.sleep duration)
          check_abort ⟨some abort, some poll⟩).run { self with checks := self.checks + 1 } = (outcome, later) ∧
      Waits abort { self with checks := self.checks + 1 } later outcome := by
    split
    · exact sleep_slices_waits duration _
    · obtain ⟨hsleep, hslept⟩ := sleep_waits abort { self with checks := self.checks + 1 } duration
      exact hslept.bind hsleep (check_abort_waits abort poll _)
  obtain ⟨outcome, later, hrun, hwaits⟩ := hafter
  refine ⟨outcome, later, hrun, (Nat.le_succ _).trans hwaits.checks, hwaits.sent_eq, ?_⟩
  exact hwaits.outcome_eq.imp_right fun ⟨heq, hanswered⟩ => ⟨heq, hanswered.widen (Nat.le_succ _) (le_refl _)⟩

/-- The questions of a piece that nothing has polled: an abort and no other. -/
def unpolled (abort : Nat → Bool) : Checks := ⟨some abort, some (fun _ => false)⟩

/-- A piece comes to its end in one way as long as none of its questions is
    answered yes. -/
structure Steady (piece : (Nat → Bool) → Streaming M A) (before : Transcript M) (value : A) (later : Transcript M) :
    Prop where
  checks : before.checks ≤ later.checks
  run : ∀ abort, (∀ question < later.checks, abort question = false) → (piece abort).run before = (.ok value, later)

theorem steady_pure (self : Transcript M) (value : A) :
    Steady (fun _ => (pure value : Streaming M A)) self value self :=
  ⟨le_refl _, fun _ _ => rfl⟩

theorem steady_perform (self : Transcript M) (effect : Effect M) :
    Steady (fun _ => .perform effect) self () { self with effects := self.effects ++ [effect] } :=
  ⟨le_refl _, fun _ _ => rfl⟩

theorem Steady.bind {first : (Nat → Bool) → Streaming M A} {next : (Nat → Bool) → A → Streaming M B}
    {self middle later : Transcript M} {value : A} {result : B} (hfirst : Steady first self value middle)
    (hnext : Steady (fun abort => next abort value) middle result later) :
    Steady (fun abort => first abort >>= next abort) self result later where
  checks := hfirst.checks.trans hnext.checks
  run abort hanswers := by
    rw [Streaming.run_bind_of_ok
      (hfirst.run abort fun question hlt => hanswers question (hlt.trans_le hnext.checks))]
    exact hnext.run abort hanswers

theorem check_abort_steady (self : Transcript M) :
    Steady (fun abort => check_abort (unpolled abort)) self () { self with checks := self.checks + 1 } where
  checks := Nat.le_succ _
  run abort hanswers := by
    rw [unpolled, check_abort_asked, hanswers self.checks (Nat.lt_succ_self _)]
    rfl

theorem sleep_with_abort_check_steady (duration : ℚ) (self : Transcript M) :
    ∃ later, Steady (fun abort => sleep_with_abort_check (unpolled abort) duration) self () later := by
  by_cases hzero : duration ≤ 0
  · refine ⟨self, le_refl _, fun abort _ => ?_⟩
    rw [sleep_with_abort_check, if_pos hzero]
    rfl
  · have hslept : Steady (fun abort => Streaming.perform (.sleep duration) >>= fun _ => check_abort (unpolled abort))
        { self with checks := self.checks + 1 } () _ := (steady_perform _ _).bind (check_abort_steady _)
    refine ⟨_, (Nat.le_succ _).trans hslept.checks, fun abort hanswers => ?_⟩
    rw [sleep_with_abort_check, if_neg hzero]
    exact hslept.run abort hanswers

end response_bandwidth_limiter.streaming

/-
The place of the trial in a circuit breaker, whoever acquires, settles and drops permits in whatever order.

Permits are granted at one time and come back at any other: normal permits of old epochs, trials that end with an
outcome, trials that end with none. What keeps the account is one equation between the breaker and the permits that
are out (`TrialInv.count`): the mark of the trial counts the trial permits. A normal permit cannot break it, for
outside the closed circuit it changes nothing (`settle_normal`); a trial takes its own mark away whatever its verdict
(`settle_trial`).

Results:
- `trial_only_half_open`: after any steps at most one trial is out, the mark says whether one is, and one is out only
  while the circuit is half open; a half open circuit grants the next permit when no trial is out, and refuses it when
  one is.
-/
import Mathlib.Tactic
import Foreman.Guard.Breaker

namespace Foreman.Breaker

/-! ## What a permit can do -/

/-- a permit is granted as a normal one by a closed circuit that stays as it is, else as a trial -/
theorem acquire_cases {b b' : Breaker} {p : Permit} {now : Nat} (h : b.acquire now = .ok (b', p)) :
    (b.circuit = .closed ∧ p = ⟨.normal, b.epoch⟩ ∧ b' = b) ∨
      ((b.circuit = .opened ∨ b.circuit = .halfOpen ∧ b.trialInFlight = false) ∧ p = ⟨.trial, b.epoch⟩ ∧
        b' = { b with circuit := .halfOpen, trialInFlight := true }) := by
  unfold acquire at h
  split at h
  · rename_i hc
    cases h
    exact Or.inl ⟨hc, rfl, rfl⟩
  · rename_i hc
    simp only at h
    split_ifs at h
    cases h
    exact Or.inr ⟨Or.inl hc, rfl, rfl⟩
  · rename_i hc
    split_ifs at h with ht
    cases h
    refine Or.inr ⟨Or.inr ⟨hc, by simpa using ht⟩, rfl, ?_⟩
    rw [← hc]

theorem acquire_halfOpen {b : Breaker} (hc : b.circuit = .halfOpen) (ht : b.trialInFlight = false) (now : Nat) :
    b.acquire now = .ok ({ b with trialInFlight := true }, ⟨.trial, b.epoch⟩) := by
  simp [acquire, hc, ht]

theorem acquire_refused {b : Breaker} (hc : b.circuit = .halfOpen) (ht : b.trialInFlight = true) (now : Nat) :
    b.acquire now = .error .zero := by
  simp [acquire, hc, ht]

theorem settle_trial (b : Breaker) {p : Permit} (hp : p.kind = .trial) (v : Verdict) (now : Nat) :
    (b.settle p v now).trialInFlight = false := by
  have hs : b.isStale p = false := by simp [isStale, hp]
  cases v <;> simp [settle, succeed, fail, abandon, trip, hs, hp]

theorem settle_normal_mark (b : Breaker) {p : Permit} (hp : p.kind = .normal) (v : Verdict) (now : Nat) :
    (b.settle p v now).trialInFlight = b.trialInFlight := by
  cases v with
  | success =>
    simp only [settle, succeed, hp]
    split_ifs <;> rfl
  | failure =>
    simp only [settle, fail, hp, trip]
    split_ifs <;> rfl
  | exhaustion => simp only [settle, abandon, hp]

theorem settle_normal (b : Breaker) {p : Permit} (hp : p.kind = .normal) (hc : b.circuit ≠ .closed) (v : Verdict)
    (now : Nat) : b.settle p v now = b := by
  have hs : b.isStale p = true := by simp [isStale, hp, hc]
  cases v <;> simp [settle, succeed, fail, abandon, hs, hp]

/-- a permit that ends without an outcome ends like one whose call ran out of tokens or slots -/
theorem abandon_eq_settle (b : Breaker) (p : Permit) (now : Nat) : b.abandon p = b.settle p .exhaustion now := rfl

/-- a permit settled with nothing in between is not stale: a success closes the circuit and sets the count back, a failure
raises it by one, if it can be raised, and exhaustion at most frees the place of the trial -/
theorem settle_acquired {b b' : Breaker} {p : Permit} {now : Nat} (h : b.acquire now = .ok (b', p)) (later : Nat) :
    ((b'.settle p .success later).circuit = .closed ∧ (b'.settle p .success later).failures = 0) ∧
      ((b'.settle p .failure later).failures = min (b.failures + 1) mostFailures ∧
        (b'.settle p .failure later).circuit =
          if p.kind = .trial ∨ b.threshold ≤ min (b.failures + 1) mostFailures then .opened else .closed) ∧
      b'.settle p .exhaustion later =
        if p.kind = .trial then { b with circuit := .halfOpen, trialInFlight := false } else b := by
  rcases acquire_cases h with ⟨hc, rfl, rfl⟩ | ⟨-, rfl, rfl⟩
  · have hstale : b'.isStale ⟨.normal, b'.epoch⟩ = false := by simp [isStale, hc]
    refine ⟨?_, ?_, by simp [settle, abandon]⟩
    · simp [settle, succeed, hstale, hc]
    · simp only [settle, fail, hstale]
      generalize min (b'.failures + 1) mostFailures = counted
      by_cases hfull : b'.threshold ≤ counted <;> simp [hfull, hc, trip]
  · refine ⟨?_, ?_, ?_⟩ <;> simp [settle, succeed, fail, abandon, trip, isStale]

/-! ## The account of the trial -/

variable {κ : Type}

def Desk.trials (d : Desk κ) : Nat := d.out.countP fun p => p.2.kind == .trial

/-- the mark counts the trial permits that are out, and it stands only while the circuit is half open -/
structure TrialInv (d : Desk κ) : Prop where
  count : d.trials = d.breaker.trialInFlight.toNat
  half : d.breaker.trialInFlight = true → d.breaker.circuit = .halfOpen

theorem trialInv_closed (threshold : UInt32) (reset : Duration) : TrialInv (κ := κ) ⟨closed threshold reset, []⟩ :=
  ⟨rfl, fun h => by simp [closed] at h⟩

/-- a permit granted: a normal one comes from a closed circuit, a trial from one without a mark -/
theorem acquire_trialInv {d : Desk κ} (h : TrialInv d) {caller : κ} {now : Nat} {b : Breaker} {p : Permit}
    (ha : d.breaker.acquire now = .ok (b, p)) : TrialInv ⟨b, d.out ++ [(caller, p)]⟩ := by
  have hcount := h.count
  unfold Desk.trials at hcount
  rcases acquire_cases ha with ⟨_, rfl, rfl⟩ | ⟨hc, rfl, rfl⟩
  · refine ⟨?_, h.half⟩
    simp [Desk.trials, List.countP_append, hcount]
  · have hmark : d.breaker.trialInFlight = false := by
      rcases hc with hc | ⟨_, hm⟩
      · by_contra hm
        have := h.half (by simpa using hm)
        rw [hc] at this
        exact absurd this (by decide)
      · exact hm
    refine ⟨?_, fun _ => rfl⟩
    simp [Desk.trials, List.countP_append, hcount, hmark]

/-! ## What a step can do -/

variable [DecidableEq κ]

theorem take_some {d : Desk κ} {caller : κ} {p : Permit} {rest : List (κ × Permit)}
    (h : d.take caller = some (p, rest)) : ∃ pre post, d.out = pre ++ (caller, p) :: post ∧ rest = pre ++ post := by
  obtain ⟨q, hq, hpr⟩ := Option.map_eq_some_iff.1 h
  obtain ⟨hk, pre, post, hout, hpre⟩ := List.find?_eq_some_iff_append.1 hq
  have hk : q.1 = caller := by simpa using hk
  simp only [Prod.mk.injEq] at hpr
  obtain ⟨rfl, rfl⟩ := hpr
  refine ⟨pre, post, by rw [hout, ← hk], ?_⟩
  have hpre : ∀ x ∈ pre, ¬ (decide (x.1 = caller) = true) := fun x hx => by simpa using hpre x hx
  rw [hout, List.eraseP_append_right _ hpre, List.eraseP_cons_of_pos (by simpa using hk)]

theorem step_acquire (d : Desk κ) (caller : κ) (now : Nat) :
    step d (.acquire caller now) = d ∨
      ∃ b p, d.breaker.acquire now = .ok (b, p) ∧ step d (.acquire caller now) = ⟨b, d.out ++ [(caller, p)]⟩ := by
  simp only [step]
  split_ifs
  · exact Or.inl rfl
  · cases ha : d.breaker.acquire now with
    | error e => left; simp [Desk.enter, ha, Except.map, Except.toOption]
    | ok r =>
      obtain ⟨b, p⟩ := r
      exact Or.inr ⟨b, p, rfl, by simp [Desk.enter, ha, Except.map, Except.toOption]⟩

/-- a step leaves the desk alone, or grants a permit to a caller without one, or ends the permit of a caller -/
theorem step_cases (d : Desk κ) (o : Op κ) :
    step d o = d ∨
      (∃ caller now b p, o = .acquire caller now ∧ d.breaker.acquire now = .ok (b, p) ∧
        step d o = ⟨b, d.out ++ [(caller, p)]⟩) ∨
      ∃ caller p rest v now, d.take caller = some (p, rest) ∧ step d o = ⟨d.breaker.settle p v now, rest⟩ := by
  cases o with
  | acquire caller now =>
    rcases step_acquire d caller now with he | ⟨b, p, ha, he⟩
    · exact Or.inl he
    · exact Or.inr (Or.inl ⟨caller, now, b, p, rfl, ha, he⟩)
  | settle caller v now =>
    simp only [step]
    split
    · rename_i p rest ht
      exact Or.inr (Or.inr ⟨caller, p, rest, v, now, ht, rfl⟩)
    · exact Or.inl rfl
  | drop caller =>
    simp only [step]
    split
    · rename_i p rest ht
      exact Or.inr (Or.inr ⟨caller, p, rest, .exhaustion, 0, ht, by rw [abandon_eq_settle _ _ 0]⟩)
    · exact Or.inl rfl

/-! ## What steps keep -/

/-- a permit ended: a trial was the only one, a normal permit touches neither the mark nor a half open circuit -/
theorem settle_trialInv {d : Desk κ} (h : TrialInv d) {caller : κ} {p : Permit} {rest : List (κ × Permit)}
    (ht : d.take caller = some (p, rest)) (v : Verdict) (now : Nat) :
    TrialInv ⟨d.breaker.settle p v now, rest⟩ := by
  obtain ⟨pre, post, hout, rfl⟩ := take_some ht
  have hcount := h.count
  simp only [Desk.trials, hout, List.countP_append, List.countP_cons] at hcount
  cases hk : p.kind with
  | normal =>
    simp only [hk, show (PermitKind.normal == PermitKind.trial) = false from rfl, Bool.false_eq_true, if_false,
      Nat.add_zero] at hcount
    refine ⟨?_, fun hm => ?_⟩
    · simp only [Desk.trials, List.countP_append, settle_normal_mark _ hk]
      exact hcount
    · simp only [settle_normal_mark _ hk] at hm
      have hc := h.half hm
      simp only [settle_normal _ hk (by rw [hc]; decide)]
      exact hc
  | trial =>
    simp only [hk, show (PermitKind.trial == PermitKind.trial) = true from rfl, if_true] at hcount
    have hle := Bool.toNat_le d.breaker.trialInFlight
    refine ⟨?_, fun hm => ?_⟩
    · simp only [Desk.trials, List.countP_append, settle_trial _ hk, Bool.toNat_false]
      omega
    · simp only [settle_trial _ hk] at hm
      exact absurd hm (by decide)

theorem step_trialInv {d : Desk κ} (h : TrialInv d) (o : Op κ) : TrialInv (step d o) := by
  rcases step_cases d o with he | ⟨caller, now, b, p, _, ha, he⟩ | ⟨caller, p, rest, v, now, ht, he⟩
  · rw [he]; exact h
  · rw [he]; exact acquire_trialInv h ha
  · rw [he]; exact settle_trialInv h ht v now

theorem run_trialInv (threshold : UInt32) (reset : Duration) (ops : List (Op κ)) :
    TrialInv (run threshold reset ops) := by
  induction ops using List.reverseRecOn with
  | nil => exact trialInv_closed threshold reset
  | append_singleton ops o ih =>
    simp only [run, List.foldl_append, List.foldl_cons, List.foldl_nil] at ih ⊢
    exact step_trialInv ih o

/-! ## Main result -/

/-- **One trial, and only while the circuit is half open.** After any steps of any callers, at most one trial permit
is out, the mark says whether one is, and one is out only while the circuit is half open. So a half open circuit is
never stuck: without a trial out it grants a trial at any clock reading, to whichever caller asks; with one out it
refuses every caller. -/
theorem trial_only_half_open (threshold : UInt32) (reset : Duration) (ops : List (Op κ)) :
    let d := run threshold reset ops
    d.trials ≤ 1 ∧ (d.breaker.trialInFlight = true ↔ d.trials = 1) ∧
      (0 < d.trials → d.breaker.circuit = .halfOpen) ∧
      (d.breaker.circuit = .halfOpen → ∀ caller now,
        (d.trials = 0 →
          d.breaker.acquire now = .ok ({ d.breaker with trialInFlight := true }, ⟨.trial, d.breaker.epoch⟩) ∧
          (d.take caller = none → (caller, ⟨.trial, d.breaker.epoch⟩) ∈ (step d (.acquire caller now)).out)) ∧
        (0 < d.trials → d.breaker.acquire now = .error .zero ∧ step d (.acquire caller now) = d)) := by
  intro d
  obtain ⟨hcount, hhalf⟩ := run_trialInv threshold reset ops
  change d.trials = d.breaker.trialInFlight.toNat at hcount
  change d.breaker.trialInFlight = true → d.breaker.circuit = .halfOpen at hhalf
  have hmark : d.breaker.trialInFlight = true ↔ 0 < d.trials := by
    rw [hcount]; cases d.breaker.trialInFlight <;> simp
  have hle : d.trials ≤ 1 := hcount ▸ Bool.toNat_le _
  refine ⟨hle, hmark.trans (by omega), fun ht => hhalf (hmark.2 ht), fun hc caller now => ⟨fun ht => ?_, fun ht => ?_⟩⟩
  · have hm : d.breaker.trialInFlight = false := by
      by_contra hm
      have := hmark.1 (by simpa using hm)
      omega
    have ha := acquire_halfOpen hc hm now
    refine ⟨ha, fun hn => ?_⟩
    simp [step, hn, Desk.enter, ha, Except.map, Except.toOption]
  · have ha := acquire_refused hc (hmark.2 ht) now
    refine ⟨ha, ?_⟩
    simp [step, Desk.enter, ha, Except.map, Except.toOption]

/-- a failed call opens the circuit and a trial follows; while it is out the circuit refuses, once it is dropped the
circuit grants again -/
theorem trial_only_half_open_dropped :
    let ops : List (Op Nat) := [.acquire 1 0, .settle 1 .failure 5, .acquire 2 9]
    let out := run 1 ⟨3⟩ ops
    let dropped := run 1 ⟨3⟩ (ops ++ [.drop 2])
    (out.breaker.circuit = .halfOpen ∧ out.trials = 1 ∧ out.breaker.acquire 9 = .error .zero) ∧
      dropped.breaker.circuit = .halfOpen ∧ dropped.trials = 0 ∧
        dropped.breaker.acquire 9 = .ok ({ dropped.breaker with trialInFlight := true }, ⟨.trial, 1⟩) := by
  intro ops out dropped
  refine ⟨⟨by decide, by decide, ?_⟩, by decide, by decide, ?_⟩
  · exact (((trial_only_half_open 1 ⟨3⟩ ops).2.2.2 (by decide) 3 9).2 (by decide)).1
  · exact (((trial_only_half_open 1 ⟨3⟩ (ops ++ [.drop 2])).2.2.2 (by decide) 3 9).1 (by decide)).1

end Foreman.Breaker

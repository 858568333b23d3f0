/-
When a work loop stops, and for what reason.

An evaluation can have six reasons to stop. They are stated here of what the loop has taken in so far, and not of the
flags that it keeps: `Holds` looks at the ledger, the todos and the harvest. The loop stops at the first evaluation at
which one of them holds, and the reason that it gives is the first of `precedence` that does. So a reason that is
proposed while synthesizing gives way to a spent budget, that to standing still, and that to too great a risk.

Results:
- `decided_eq`:             an evaluation decides for the first reason that holds.
- `stopped`:                a reason to stop was decided for by an evaluation.
- `outcome_of_decided`:     an evaluation with a reason is the last one.
- `stops_at_first_holding`: a run stops at its first evaluation with a reason, and for that reason.
-/
import Foreman.Proofs.Loop.Rounds

namespace Foreman.WorkLoop

/-! ## Reasons -/

/-- the reasons to stop, each going before the ones after it -/
def precedence : List StopReason :=
  [.riskThreshold, .stagnation, .budgetExhausted, .humanRequired, .blockingQuestion, .recommendationReady]

/-- whether there is a reason to stop, in a context whose evidence was compared, with the tasks that were taken in round
by round, after so many milliseconds -/
def Holds (s : WorkSettings) (c : WorkContext) (harvest : List (List Task)) (elapsed : Nat) : StopReason → Prop
  | .riskThreshold =>
    (c.ledger.findings = [] ∧ s.maxRisk.lt .zero = true) ∨ ∃ f ∈ c.ledger.findings, s.maxRisk.lt f.risk = true
  | .stagnation => s.stagnationThreshold ≤ c.stagnant
  | .budgetExhausted => s.maxIterations ≤ c.iteration ∨ s.maxSubagentCalls ≤ c.calls ∨ s.maxWallClockMs ≤ elapsed
  | .humanRequired => ∃ p ∈ payloads harvest.flatten, p.needsHuman = true
  | .blockingQuestion => ∃ p ∈ payloads harvest.flatten, p.blockingQuestion.isSome = true
  | .recommendationReady =>
    (∃ p ∈ payloads harvest.flatten, p.recommendation.isSome = true) ∨
      (∀ t ∈ c.todos.items, t.status = .completed ∨ t.status = .cancelled) ∧
        ∀ p ∈ payloads (harvest.getLastD []), p.followUps = []

instance (s : WorkSettings) (c : WorkContext) (harvest : List (List Task)) (elapsed : Nat) :
    DecidablePred (Holds s c harvest elapsed)
  | .riskThreshold => inferInstanceAs (Decidable (_ ∨ _))
  | .stagnation => inferInstanceAs (Decidable (_ ≤ _))
  | .budgetExhausted => inferInstanceAs (Decidable (_ ∨ _))
  | .humanRequired => inferInstanceAs (Decidable (∃ p ∈ payloads harvest.flatten, p.needsHuman = true))
  | .blockingQuestion =>
    inferInstanceAs (Decidable (∃ p ∈ payloads harvest.flatten, p.blockingQuestion.isSome = true))
  | .recommendationReady => inferInstanceAs (Decidable (_ ∨ _))

variable {ω : Type} {w : World ω} {digest : List UInt8 → List UInt8} {s : Settings} {machineId : String}

/-- the first reason to stop that holds when a run evaluates on its `n`-th boundary -/
def reason? (w : World ω) (digest : List UInt8 → List UInt8) (s : Settings) (n : Nat) (r : Run ω) :
    Option StopReason :=
  let q := boundary w digest s n r
  precedence.find? fun x =>
    Holds s.work (compareEvidence digest q.machine.context.data) (harvested w digest s n r) (w.clock q.world) x

/-! ## What an evaluation decides -/

/-- what was proposed is the first reason that agents or the end of all work give -/
theorem Knows.propose_eq {H : List (List Task)} {c : WorkContext} (h : Knows H .evaluate c)
    (digest : List UInt8 → List UInt8) (s : Settings) (elapsed : Nat) :
    c.proposed = [StopReason.humanRequired, .blockingQuestion, .recommendationReady].find? fun x =>
      Holds s.work (compareEvidence digest c) H elapsed x := by
  have hhuman : c.needsHuman = true ↔ Holds s.work (compareEvidence digest c) H elapsed .humanRequired := by
    rw [h.learnt.needsHuman, List.any_eq_true]
    rfl
  have hquestion : c.blockingQuestion.isSome = true ↔
      Holds s.work (compareEvidence digest c) H elapsed .blockingQuestion := by
    rw [h.learnt.blockingQuestion, List.any_eq_true]
    rfl
  have hready : (c.recommendation.isSome || (c.todos.unresolved == 0 && c.followUps.isEmpty)) = true ↔
      Holds s.work (compareEvidence digest c) H elapsed .recommendationReady := by
    rw [Bool.or_eq_true, Bool.and_eq_true, beq_iff_eq, List.isEmpty_iff, h.learnt.recommendation, List.any_eq_true,
      TodoList.unresolved_eq_zero, h.followUps (Or.inr rfl), List.flatMap_eq_nil_iff]
    rfl
  rw [h.proposed rfl, propose]
  simp only [List.find?_cons, List.find?_nil]
  by_cases h1 : c.needsHuman = true
  · simp [h1, hhuman.1 h1]
  by_cases h2 : c.blockingQuestion.isSome = true
  · simp [h1, h2, hquestion.1 h2, mt hhuman.2 h1]
  by_cases h3 : (c.recommendation.isSome || (c.todos.unresolved == 0 && c.followUps.isEmpty)) = true
  · simp [h1, h2, h3, hready.1 h3, mt hhuman.2 h1, mt hquestion.2 h2]
  · simp [h1, h2, h3, mt hready.2 h3, mt hhuman.2 h1, mt hquestion.2 h2]

/-- **An evaluation decides for the first reason that holds.** -/
theorem decided_eq {H : List (List Task)} {r : Run ω} (h : Knows H .evaluate r.machine.context.data) :
    decided w digest s r = precedence.find? fun x =>
      Holds s.work (compareEvidence digest r.machine.context.data) H (w.clock r.world) x := by
  have hrisk : s.work.maxRisk.lt (compareEvidence digest r.machine.context.data).ledger.maxRisk = true ↔
      Holds s.work (compareEvidence digest r.machine.context.data) H (w.clock r.world) .riskThreshold :=
    h.learnt.ledger.lt_maxRisk s.work.maxRisk
  have hspent : isSpent s.work (compareEvidence digest r.machine.context.data) (w.clock r.world) = true ↔
      Holds s.work (compareEvidence digest r.machine.context.data) H (w.clock r.world) .budgetExhausted := by
    simp only [isSpent, Bool.or_eq_true, decide_eq_true_eq, or_assoc]
    rfl
  have hproposed := h.propose_eq digest s (w.clock r.world)
  have hthree : ∀ p : StopReason → Bool, p .riskThreshold = false → p .stagnation = false →
      p .budgetExhausted = false →
      precedence.find? p = [StopReason.humanRequired, .blockingQuestion, .recommendationReady].find? p := by
    intro p h1 h2 h3
    simp only [precedence, List.find?_cons, h1, h2, h3]
  rw [decided, decideStop]
  by_cases h1 : s.work.maxRisk.lt (compareEvidence digest r.machine.context.data).ledger.maxRisk = true
  · simp [precedence, h1, hrisk.1 h1]
  have h1' := mt hrisk.2 h1
  by_cases h2 : s.work.stagnationThreshold ≤ (compareEvidence digest r.machine.context.data).stagnant
  · have h2' : Holds s.work (compareEvidence digest r.machine.context.data) H (w.clock r.world) .stagnation := h2
    simp [precedence, h1, h1', h2, h2']
  have h2' : ¬ Holds s.work (compareEvidence digest r.machine.context.data) H (w.clock r.world) .stagnation := h2
  by_cases h3 : isSpent s.work (compareEvidence digest r.machine.context.data) (w.clock r.world) = true
  · simp [precedence, h1, h1', h2, h2', h3, hspent.1 h3]
  have h3' := mt hspent.2 h3
  rw [if_neg h1, if_neg h2, if_neg h3, hthree _ (by simpa using h1') (by simpa using h2') (by simpa using h3')]
  exact hproposed

/-- on a boundary with an evaluation the first reason that holds is decided for -/
theorem decided_boundary {r : Run ω} (hr : Ruled machineId r) (h : Knows [] r.machine.state r.machine.context.data)
    {n : Nat} (hs : (boundary w digest s n r).machine.state = .evaluate) :
    decided w digest s (boundary w digest s n r) = reason? w digest s n r := by
  have hknows := knows w digest s hr h n
  rw [hs] at hknows
  exact decided_eq hknows

theorem evaluate_done {r : Run ω} (hr : Ruled machineId r) {n : Nat}
    (hs : (boundary w digest s n r).machine.state = .evaluate) {x : StopReason}
    (hx : decided w digest s (boundary w digest s n r) = some x) :
    (boundary w digest s (n + 1) r).machine.state = .done ∧
      (boundary w digest s (n + 1) r).machine.context.data.stopReason = some x ∧
      (boundary w digest s (n + 1) r).machine.context.data.iteration =
        (boundary w digest s n r).machine.context.data.iteration := by
  have hnext := next_evaluate w digest s (hr.boundary w digest s n) hs
  simp only [hx] at hnext
  rw [boundary_succ w digest s hr]
  refine ⟨hnext.state, ?_, ?_⟩
  · rw [hnext.data]
  · rw [hnext.data]
    rfl

/-! ## Runs -/

theorem next_stopReason {r : Run ω} (hr : Ruled machineId r) (hs : r.machine.state ≠ .evaluate) :
    (next w digest s r).machine.context.data.stopReason = r.machine.context.data.stopReason := by
  cases hstate : r.machine.state with
  | intake =>
    cases hg : Text.allBlank r.machine.context.data.goal with
    | true => rw [(next_blank w digest s hr hstate hg).data]
    | false => rw [(next_intake w digest s hr hstate hg).data]
  | plan =>
    cases hc : plan r.machine.context.data with
    | none => rw [(next_noPlan w digest s hr hstate hc).data]
    | some c =>
      obtain ⟨todos, next, rfl⟩ := plan_eq hc
      rw [(next_plan w digest s hr hstate hc).data]
  | act => rw [(next_act w digest s hr hstate).data, (acted_gathered w s r).frame.stopReason]
  | synthesize => rw [(next_synthesize w digest s hr hstate).data]
  | evaluate => exact absurd hstate hs
  | done => rw [next_done hstate]
  | failed => rw [next_failed hr hstate]

/-- **A reason to stop was decided for by an evaluation.** -/
theorem stopped {r : Run ω} (hr : Ruled machineId r) (h : r.machine.context.data.stopReason = none) {n : Nat}
    {x : StopReason} (hx : (boundary w digest s n r).machine.context.data.stopReason = some x) :
    ∃ m < n, (boundary w digest s m r).machine.state = .evaluate ∧
      decided w digest s (boundary w digest s m r) = some x := by
  induction n with
  | zero =>
    have hnone : (boundary w digest s 0 r).machine.context.data.stopReason = none := h
    rw [hnone] at hx
    cases hx
  | succ n ih =>
    have hruled := hr.boundary w digest s n
    rw [boundary_succ w digest s hr] at hx
    -- either it was there before, or this step has evaluated
    have hbefore : (boundary w digest s n r).machine.context.data.stopReason = some x →
        ∃ m < n + 1, (boundary w digest s m r).machine.state = .evaluate ∧
          decided w digest s (boundary w digest s m r) = some x := by
      intro hx
      obtain ⟨m, hm, hrest⟩ := ih hx
      exact ⟨m, Nat.lt_succ_of_lt hm, hrest⟩
    by_cases hs : (boundary w digest s n r).machine.state = .evaluate
    · have hnext := next_evaluate w digest s hruled hs
      cases hdec : decided w digest s (boundary w digest s n r) with
      | some reason =>
        simp only [hdec] at hnext
        rw [hnext.data] at hx
        exact ⟨n, Nat.lt_succ_self n, hs, hdec.trans hx⟩
      | none =>
        simp only [hdec] at hnext
        rw [hnext.data] at hx
        exact hbefore hx
    · rw [next_stopReason hruled hs] at hx
      exact hbefore hx

/-- an evaluation with a reason is the last one, and the outcome of the run gives the reason and the iteration -/
theorem outcome_of_decided {r : Run ω} (hs : s.validate = .ok ()) (hr : Ruled machineId r) (h : OnCourse s 0 r)
    {n : Nat} (hn : (boundary w digest s n r).machine.state = .evaluate) {x : StopReason}
    (hx : decided w digest s (boundary w digest s n r) = some x) :
    ∃ o, (run w digest s r).1 = .ok o ∧ o.stopReason = x ∧
      o.iterations = (boundary w digest s n r).machine.context.data.iteration := by
  obtain ⟨hdone, hreason, hiteration⟩ := evaluate_done hr hn hx
  have hon := onCourse w digest hs hr h n (by simp [hn])
  have hsteps := hon.steps (by simp [hn])
  obtain ⟨hpos, hle⟩ := hon.within (by simp [hn])
  have hbound : n + 1 ≤ stepBound s := by
    rw [hsteps, length_way, hn, stepBound]
    simp only [upTo, round, List.length_cons, List.length_nil]
    omega
  -- the run is done within its steps, and stays here to its end
  have hend := boundary_done w digest s hbound hr hdone
  obtain ⟨-, reason, hsome, hrun⟩ := run_done hs hr h (w := w) (by rw [hend, hdone]; decide)
  rw [hend, hreason, Option.some.injEq] at hsome
  refine ⟨_, congrArg Prod.fst hrun, hsome.symm, ?_⟩
  simp only [hend]
  exact hiteration

/-- **A run stops at its first evaluation with a reason, and for that reason.** Take a run of a work loop with any goal,
todos and subagents in any world. At an evaluation the tasks of as many rounds were taken in as the iteration says. If
no reason holds there the loop goes on to plan. If one does the loop is done, its outcome gives the first reason that
holds and the iteration of this evaluation, and at no evaluation before it was there a reason. And an outcome always
comes from such an evaluation. -/
theorem stops_at_first_holding (w : World ω) (digest : List UInt8 → List UInt8) (s : Settings) (registry : Registry)
    (id : String) (observers : Nat) (hasStore : Bool) (goal : String) (changes : ChangeSet) (todos : List Todo)
    (nextId : Nat) (world : ω) (r : Run ω)
    (h : begin s registry id observers hasStore (.start goal changes todos nextId) world = .ok r) :
    (∀ n, (boundary w digest s n r).machine.state = .evaluate →
      (harvested w digest s n r).length = (boundary w digest s n r).machine.context.data.iteration ∧
        (reason? w digest s n r = none → (boundary w digest s (n + 1) r).machine.state = .plan) ∧
        ∀ x, reason? w digest s n r = some x →
          (boundary w digest s (n + 1) r).machine.state = .done ∧
            ∃ o, (run w digest s r).1 = .ok o ∧ o.stopReason = x ∧
              o.iterations = (boundary w digest s n r).machine.context.data.iteration ∧
              ∀ m < n, (boundary w digest s m r).machine.state = .evaluate → reason? w digest s m r = none) ∧
      ∀ o, (run w digest s r).1 = .ok o → ∃ n, (boundary w digest s n r).machine.state = .evaluate ∧
        reason? w digest s n r = some o.stopReason := by
  obtain ⟨hs, hruled, -, hknows, hcourse, hnone, -⟩ := begin_fresh h
  constructor
  · intro n hn
    have hlength := (knows w digest s hruled hknows n).rounds (by simp [hn])
    rw [hn] at hlength
    rw [← decided_boundary hruled hknows hn]
    refine ⟨hlength, fun hx => ?_, fun x hx => ?_⟩
    · have hnext := next_evaluate w digest s (hruled.boundary w digest s n) hn
      simp only [hx] at hnext
      rw [boundary_succ w digest s hruled]
      exact hnext.state
    · obtain ⟨o, ho, hreason, hiteration⟩ := outcome_of_decided hs hruled hcourse hn hx
      refine ⟨(evaluate_done hruled hn hx).1, o, ho, hreason, hiteration, ?_⟩
      intro m hm hsm
      rw [← decided_boundary hruled hknows hsm]
      by_contra hne
      obtain ⟨y, hy⟩ := Option.ne_none_iff_exists'.1 hne
      have hdone := (evaluate_done hruled hsm hy).1
      rw [boundary_done w digest s hm hruled hdone, hdone] at hn
      cases hn
  · intro o ho
    cases hd : drive w digest s (stepBound s) r with
    | error e => simp [run, hd] at ho
    | ok q =>
      have hq : boundary w digest s (stepBound s) r = q := by simp [boundary, hd]
      cases hx : q.machine.context.data.stopReason with
      | none => simp [run, hd, Run.outcome, hx] at ho
      | some x =>
        simp only [run, hd, Run.outcome, hx, Except.ok.injEq] at ho
        obtain ⟨m, -, hsm, hdec⟩ := stopped (w := w) hruled hnone (hq ▸ hx)
        exact ⟨m, hsm, by rw [← decided_boundary hruled hknows hsm, hdec, ← ho]⟩

/-- tasks that recommend something from the second round on, and ask something as well -/
def advising : World Nat :=
  .inTurn fun k =>
    .ok (if k = 0 then .blank else { Payload.blank with recommendation := some "go", blockingQuestion := some "when?" })

/-- the first round gives no reason to stop; the second gives two, and the question goes before the recommendation -/
theorem stops_at_first_holding_question :
    ∃ r, begin {} .standard "work" 0 false (.start "look" ⟨[]⟩ [] 0) 0 = .ok r ∧
      (boundary advising (fun x => x) {} (4 + 1) r).machine.state = .plan ∧
      reason? advising (fun x => x) {} 8 r = some .blockingQuestion ∧
      ∃ o, (run advising (fun x => x) {} r).1 = .ok o ∧ o.stopReason = .blockingQuestion ∧ o.iterations = 2 := by
  have hbegin := begin_oneTask
  obtain ⟨hevaluate, -⟩ := stops_at_first_holding advising (fun x => x) {} .standard "work" 0 false "look" ⟨[]⟩ [] 0 0
    oneTask hbegin
  have h4 : (boundary advising (fun x => x) {} 4 oneTask).machine.state = .evaluate := by decide +kernel
  have h8 : (boundary advising (fun x => x) {} 8 oneTask).machine.state = .evaluate := by decide +kernel
  obtain ⟨-, hgoes, -⟩ := hevaluate 4 h4
  obtain ⟨-, -, hstops⟩ := hevaluate 8 h8
  have hnone : reason? advising (fun x => x) {} 4 oneTask = none := by decide +kernel
  have hsome : reason? advising (fun x => x) {} 8 oneTask = some .blockingQuestion := by decide +kernel
  have htwo : (boundary advising (fun x => x) {} 8 oneTask).machine.context.data.iteration = 2 := by decide +kernel
  obtain ⟨-, o, ho, hreason, hiterations, -⟩ := hstops .blockingQuestion hsome
  exact ⟨oneTask, hbegin, hgoes hnone, hsome, o, ho, hreason, hiterations.trans htwo⟩

end Foreman.WorkLoop

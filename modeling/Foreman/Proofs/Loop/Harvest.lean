/-
What the tasks of a work loop bring to it, round by round.

A round of acting takes in the tasks that it performed, in the order in which they ended. Their payloads add to the
evidence, to what agents ask for and to the suggestions; everything else that a loop knows is left alone (`Frame`). So
what the loop knows at a boundary can be read off the harvest, the tasks taken in so far, a list for each round.

Results:
- `foldl_absorb`:   what taking in tasks adds.
- `acted_gathered`: what a round of acting adds.
- `harvested_succ`: the harvest grows by what the last step took in.
- `knows`:          what a loop knows on a boundary.
-/
import Foreman.Proofs.Ledger.Risk
import Foreman.Proofs.Loop.WorkSteps

namespace Foreman

/-- the payloads of tasks, in the order of the tasks -/
def payloads (ts : List Task) : List Payload := ts.filterMap Task.result

/-- the pieces of evidence that tasks bring, in order of arrival -/
def arrivals (ts : List Task) : List String := (payloads ts).flatMap Payload.evidence

theorem payloads_append (ts us : List Task) : payloads (ts ++ us) = payloads ts ++ payloads us := by
  simp [payloads]

theorem arrivals_append (ts us : List Task) : arrivals (ts ++ us) = arrivals ts ++ arrivals us := by
  simp [arrivals, payloads_append]

namespace WorkLoop

/-! ## What a step leaves alone -/

/-- two contexts agree apart from what planning and acting change -/
structure Frame (c c' : WorkContext) : Prop where
  goal : c'.goal = c.goal
  iteration : c'.iteration = c.iteration
  proposed : c'.proposed = c.proposed
  stopReason : c'.stopReason = c.stopReason
  fingerprint : c'.fingerprint = c.fingerprint
  stagnant : c'.stagnant = c.stagnant

theorem Frame.refl (c : WorkContext) : Frame c c := ⟨rfl, rfl, rfl, rfl, rfl, rfl⟩

theorem Frame.trans {a b c : WorkContext} (h : Frame a b) (h' : Frame b c) : Frame a c :=
  ⟨h'.goal.trans h.goal, h'.iteration.trans h.iteration, h'.proposed.trans h.proposed,
    h'.stopReason.trans h.stopReason, h'.fingerprint.trans h.fingerprint, h'.stagnant.trans h.stagnant⟩

/-- planning makes todos and forgets the suggestions that it has made todos of -/
theorem plan_eq {c c' : WorkContext} (h : plan c = some c') :
    ∃ todos next, c' = { c with todos := todos, nextId := next, followUps := [] } := by
  unfold plan at h
  split_ifs at h
  · cases hg : Plan.ofGoal c.nextId c.goal with
    | none => simp [hg] at h
    | some ts =>
      simp only [hg, Option.map_some, Option.bind_eq_bind, Option.bind_some, pure, Option.some.injEq] at h
      exact ⟨_, _, h.symm⟩
  · simp only [Option.bind_eq_bind, Option.bind_some, pure, Option.some.injEq] at h
    exact ⟨_, _, h.symm⟩

/-! ## Taking in tasks -/

/-- a context after tasks were taken in: what their payloads add to the one before -/
structure Gathered (c : WorkContext) (ts : List Task) (c' : WorkContext) : Prop where
  frame : Frame c c'
  calls : c'.calls = c.calls + ts.length
  evidence : c'.evidence = (arrivals ts).foldl addEvidence c.evidence
  followUps : c'.followUps = c.followUps ++ (payloads ts).flatMap Payload.followUps
  needsHuman : c'.needsHuman = (c.needsHuman || (payloads ts).any Payload.needsHuman)
  blockingQuestion :
    c'.blockingQuestion.isSome = (c.blockingQuestion.isSome || (payloads ts).any fun p => p.blockingQuestion.isSome)
  recommendation :
    c'.recommendation.isSome = (c.recommendation.isSome || (payloads ts).any fun p => p.recommendation.isSome)
  ledger : ∃ fs : List Finding, (∀ f ∈ fs, f.Made) ∧ c'.ledger = c.ledger.after fs

theorem Gathered.nil (c : WorkContext) : Gathered c [] c :=
  ⟨.refl c, by simp, by simp [arrivals, payloads], by simp [payloads], by simp [payloads], by simp [payloads],
    by simp [payloads], [], by simp, rfl⟩

theorem Gathered.append {a b c : WorkContext} {ts us : List Task} (h : Gathered a ts b) (h' : Gathered b us c) :
    Gathered a (ts ++ us) c where
  frame := h.frame.trans h'.frame
  calls := by rw [h'.calls, h.calls, List.length_append, Nat.add_assoc]
  evidence := by rw [h'.evidence, h.evidence, arrivals_append, List.foldl_append]
  followUps := by rw [h'.followUps, h.followUps, payloads_append, List.flatMap_append, List.append_assoc]
  needsHuman := by rw [h'.needsHuman, h.needsHuman, payloads_append, List.any_append, Bool.or_assoc]
  blockingQuestion := by
    rw [h'.blockingQuestion, h.blockingQuestion, payloads_append, List.any_append, Bool.or_assoc]
  recommendation := by rw [h'.recommendation, h.recommendation, payloads_append, List.any_append, Bool.or_assoc]
  ledger := by
    obtain ⟨fs, hfs, hl⟩ := h.ledger
    obtain ⟨gs, hgs, hl'⟩ := h'.ledger
    exact ⟨fs ++ gs, List.forall_mem_append.2 ⟨hfs, hgs⟩, by rw [hl', hl, Ledger.after_append]⟩

theorem absorb_frame (c : WorkContext) (d : Delegator) (t : Task) : Frame c (absorb (c, d) t).1 := by
  unfold absorb
  cases t.result <;> exact ⟨rfl, rfl, rfl, rfl, rfl, rfl⟩

theorem absorb_gathered (c : WorkContext) (d : Delegator) (t : Task) : Gathered c [t] (absorb (c, d) t).1 := by
  have hframe := absorb_frame c d t
  cases hr : t.result with
  | none =>
    have hp : payloads [t] = [] := by simp [payloads, hr]
    refine ⟨hframe, ?_, ?_, ?_, ?_, ?_, ?_, [], by simp, by simp [absorb, hr, Ledger.after_nil]⟩ <;>
      simp [absorb, hr, hp, arrivals]
  | some p =>
    have hp : payloads [t] = [p] := by simp [payloads, hr]
    have hledger : (absorb (c, d) t).1.ledger =
        c.ledger.after (Finding.ofReports c.nextId p.findings t.subagent (some t.todoId)) := by
      simp [absorb, absorbPayload, hr, Loop.record, Ledger.after]
    refine ⟨hframe, ?_, ?_, ?_, ?_, ?_, ?_, _, fun f hf => Finding.made_of_mem hf, hledger⟩ <;>
      simp [absorb, absorbPayload, hr, hp, arrivals, Bool.or_comm]

/-- **What taking in tasks adds.** -/
theorem foldl_absorb (ts : List Task) (c : WorkContext) (d : Delegator) :
    Gathered c ts (ts.foldl absorb (c, d)).1 := by
  induction ts generalizing c d with
  | nil => exact .nil c
  | cons t ts ih =>
    have hfirst := absorb_gathered c d t
    have hrest := ih (absorb (c, d) t).1 (absorb (c, d) t).2
    exact hfirst.append hrest

variable {ω : Type} {w : World ω} {digest : List UInt8 → List UInt8} {s : Settings} {machineId : String}

/-- **What a round of acting adds.** -/
theorem acted_gathered (w : World ω) (s : Settings) (r : Run ω) :
    Gathered r.machine.context.data (performed w s r).2.2 (acted w s r).1 := by
  have h := foldl_absorb (performed w s r).2.2 (dispatch s.work r.machine.context.data r.delegator).1
    (performed w s r).2.1
  -- dispatching changes todos and the next number only
  exact ⟨⟨h.frame.goal, h.frame.iteration, h.frame.proposed, h.frame.stopReason, h.frame.fingerprint,
    h.frame.stagnant⟩, h.calls, h.evidence, h.followUps, h.needsHuman, h.blockingQuestion, h.recommendation, h.ledger⟩

/-! ## The harvest -/

/-- the tasks that a step takes in: one list of them when it acts -/
def harvest (w : World ω) (s : Settings) (r : Run ω) : List (List Task) :=
  match r.machine.state with
  | .act => [(performed w s r).2.2]
  | _ => []

theorem harvest_act {r : Run ω} (h : r.machine.state = .act) : harvest w s r = [(performed w s r).2.2] := by
  simp [harvest, h]

theorem harvest_idle {r : Run ω} (h : r.machine.state ≠ .act) : harvest w s r = [] := by
  cases hs : r.machine.state with
  | act => exact absurd hs h
  | _ => simp [harvest, hs]

/-- the tasks taken in before a boundary, round by round -/
def harvested (w : World ω) (digest : List UInt8 → List UInt8) (s : Settings) (n : Nat) (r : Run ω) :
    List (List Task) :=
  (List.range n).flatMap fun k => harvest w s (boundary w digest s k r)

/-- **The harvest grows by what the last step took in.** -/
theorem harvested_succ (n : Nat) (r : Run ω) :
    harvested w digest s (n + 1) r = harvested w digest s n r ++ harvest w s (boundary w digest s n r) := by
  simp [harvested, List.range_succ]

/-! ## What a loop knows -/

/-- what a loop has learnt from tasks -/
structure Learnt (ts : List Task) (c : WorkContext) : Prop where
  evidence : c.evidence = (arrivals ts).foldl addEvidence []
  needsHuman : c.needsHuman = (payloads ts).any Payload.needsHuman
  blockingQuestion : c.blockingQuestion.isSome = (payloads ts).any fun p => p.blockingQuestion.isSome
  recommendation : c.recommendation.isSome = (payloads ts).any fun p => p.recommendation.isSome
  ledger : c.ledger.Stock

theorem Learnt.gathered {ts us : List Task} {c c' : WorkContext} (h : Learnt ts c) (hg : Gathered c us c') :
    Learnt (ts ++ us) c' where
  evidence := by rw [hg.evidence, h.evidence, arrivals_append, List.foldl_append]
  needsHuman := by rw [hg.needsHuman, h.needsHuman, payloads_append, List.any_append]
  blockingQuestion := by rw [hg.blockingQuestion, h.blockingQuestion, payloads_append, List.any_append]
  recommendation := by rw [hg.recommendation, h.recommendation, payloads_append, List.any_append]
  ledger := by
    obtain ⟨fs, hfs, hl⟩ := hg.ledger
    rw [hl]
    exact h.ledger.after hfs

theorem Learnt.congr {ts : List Task} {c c' : WorkContext} (h : Learnt ts c) (hevidence : c'.evidence = c.evidence)
    (hhuman : c'.needsHuman = c.needsHuman) (hquestion : c'.blockingQuestion = c.blockingQuestion)
    (hrecommendation : c'.recommendation = c.recommendation) (hledger : c'.ledger = c.ledger) : Learnt ts c' where
  evidence := hevidence.trans h.evidence
  needsHuman := hhuman.trans h.needsHuman
  blockingQuestion := by rw [hquestion, h.blockingQuestion]
  recommendation := by rw [hrecommendation, h.recommendation]
  ledger := hledger ▸ h.ledger

/-- one for a round that has begun and has not acted yet -/
def begun : WorkState → Nat
  | .plan | .act => 1
  | _ => 0

/-- what a loop knows in a state: all that was learnt, the number of the round, and the suggestions of this round -/
structure Knows (harvest : List (List Task)) (state : WorkState) (c : WorkContext) : Prop where
  learnt : Learnt harvest.flatten c
  rounds : state ≠ .failed → harvest.length + begun state = c.iteration
  planned : state = .act → c.followUps = []
  followUps : state = .synthesize ∨ state = .evaluate →
    c.followUps = (payloads (harvest.getLastD [])).flatMap Payload.followUps
  proposed : state = .evaluate → c.proposed = propose c

theorem Knows.failed {harvest : List (List Task)} {state : WorkState} {c : WorkContext} (h : Knows harvest state c) :
    Knows harvest .failed c :=
  ⟨h.learnt, fun hne => absurd rfl hne, by simp, by simp, by simp⟩

/-- **A step adds its harvest to what is known.** -/
theorem Knows.next {H : List (List Task)} {r : Run ω} (hr : Ruled machineId r)
    (h : Knows H r.machine.state r.machine.context.data) :
    Knows (H ++ harvest w s r) (next w digest s r).machine.state (next w digest s r).machine.context.data := by
  have hlearnt := h.learnt
  have hrounds := h.rounds
  cases hs : r.machine.state with
  | intake =>
    rw [harvest_idle (by simp [hs]), List.append_nil]
    cases hg : Text.allBlank r.machine.context.data.goal with
    | true =>
      have hnext := next_blank w digest s hr hs hg
      rw [hnext.state, hnext.data]
      exact h.failed
    | false =>
      have hnext := next_intake w digest s hr hs hg
      rw [hs] at hrounds
      rw [hnext.state, hnext.data]
      exact ⟨hlearnt.congr rfl rfl rfl rfl rfl, fun _ => congrArg (· + 1) (hrounds (by decide)),
        by simp, by simp, by simp⟩
  | plan =>
    rw [harvest_idle (by simp [hs]), List.append_nil]
    cases hc : plan r.machine.context.data with
    | none =>
      have hnext := next_noPlan w digest s hr hs hc
      rw [hnext.state, hnext.data]
      exact h.failed
    | some c =>
      have hnext := next_plan w digest s hr hs hc
      obtain ⟨todos, next, rfl⟩ := plan_eq hc
      rw [hs] at hrounds
      rw [hnext.state, hnext.data]
      exact ⟨hlearnt.congr rfl rfl rfl rfl rfl, fun _ => hrounds (by decide), fun _ => rfl, by simp, by simp⟩
  | act =>
    have hnext := next_act w digest s hr hs
    have hg := acted_gathered w s r
    rw [hs] at hrounds
    rw [harvest_act hs, hnext.state, hnext.data]
    refine ⟨?_, fun _ => ?_, by simp, fun _ => ?_, by simp⟩
    · simpa using hlearnt.gathered hg
    · rw [hg.frame.iteration, ← hrounds (by decide), List.length_append]
      rfl
    · rw [hg.followUps, h.planned hs]
      simp
  | synthesize =>
    have hnext := next_synthesize w digest s hr hs
    rw [hs] at hrounds
    rw [harvest_idle (by simp [hs]), List.append_nil, hnext.state, hnext.data]
    exact ⟨hlearnt.congr rfl rfl rfl rfl rfl, fun _ => hrounds (by decide), by simp,
      fun _ => h.followUps (Or.inl hs), fun _ => rfl⟩
  | evaluate =>
    have hnext := next_evaluate w digest s hr hs
    rw [hs] at hrounds
    rw [harvest_idle (by simp [hs]), List.append_nil]
    cases hdec : decided w digest s r with
    | some reason =>
      simp only [hdec] at hnext
      rw [hnext.state, hnext.data]
      exact ⟨hlearnt.congr rfl rfl rfl rfl rfl, fun _ => hrounds (by decide), by simp, by simp, by simp⟩
    | none =>
      simp only [hdec] at hnext
      rw [hnext.state, hnext.data]
      exact ⟨hlearnt.congr rfl rfl rfl rfl rfl, fun _ => congrArg (· + 1) (hrounds (by decide)),
        by simp, by simp, by simp⟩
  | done =>
    rw [harvest_idle (by simp [hs]), List.append_nil, next_done hs]
    exact h
  | failed =>
    rw [harvest_idle (by simp [hs]), List.append_nil, next_failed hr hs]
    exact h

/-- **What a loop knows on a boundary**, from what it knows at its start -/
theorem knows (w : World ω) (digest : List UInt8 → List UInt8) (s : Settings) {r : Run ω} (hr : Ruled machineId r)
    (h : Knows [] r.machine.state r.machine.context.data) (n : Nat) :
    Knows (harvested w digest s n r) (boundary w digest s n r).machine.state
      (boundary w digest s n r).machine.context.data := by
  induction n with
  | zero => exact h
  | succ n ih =>
    rw [harvested_succ, boundary_succ w digest s hr]
    exact Knows.next (hr.boundary w digest s n) ih

theorem start_knows (goal : String) (changes : ChangeSet) (todos : List Todo) (nextId : Nat) :
    Knows [] .intake (.start goal changes todos nextId) :=
  ⟨⟨rfl, rfl, rfl, rfl, Ledger.stock_empty changes⟩, fun _ => rfl, fun _ => rfl, by simp, by simp⟩

end WorkLoop

end Foreman

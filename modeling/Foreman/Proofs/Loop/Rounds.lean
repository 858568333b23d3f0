/-
The rounds of a work loop.

After intake a work loop goes through rounds of planning, acting, synthesizing and evaluating. Entering the planning
state counts a round, and an evaluation goes back to planning only if the budget of rounds is not spent; so a run is
done within that budget, whatever tasks bring and whenever they end. Two things alone can end it with an error: a goal
that is blank, and a goal that cannot be cut when there are no todos.

Results:
- `onCourse`:      a run that has not failed has come by whole rounds.
- `Fed.unfailed`:  a run with a goal and a way to plan does not fail.
- `onCourse_done`: after `stepBound` steps a run on course is done.
- `run_rounds`:    every run is made of rounds, or ends at intake.
-/
import Foreman.Proofs.Loop.Harvest
import Foreman.Proofs.Loop.Settle
import Foreman.Proofs.Settings

namespace Foreman

/-! ## Plans -/

/-- whether a goal can be cut has nothing to do with the ids of its todos -/
theorem Plan.ofGoal_isSome (m n : Nat) (goal : String) : (ofGoal m goal).isSome = (ofGoal n goal).isSome := by
  unfold ofGoal
  by_cases h : 2 ≤ (explicitItems goal.toList).length
  · simp [h]
  · simp only [h, if_false, Option.isSome_map]

namespace WorkLoop

/-- there are todos, or the goal can be cut into some -/
def Plannable (c : WorkContext) : Prop := c.todos.isEmpty = true → (Plan.ofGoal c.nextId c.goal).isSome = true

theorem Plannable.plan {c : WorkContext} (h : Plannable c) : ∃ c', plan c = some c' := by
  unfold WorkLoop.plan
  cases he : c.todos.isEmpty with
  | false => exact ⟨_, rfl⟩
  | true =>
    obtain ⟨ts, hts⟩ := Option.isSome_iff_exists.1 (h he)
    simp only [hts, if_true]
    exact ⟨_, rfl⟩

/-- where no todo is removed and the goal is the same, there is a plan still -/
theorem Plannable.mono {c c' : WorkContext} (h : Plannable c) (hgoal : c'.goal = c.goal)
    (htodos : c'.todos.isEmpty = true → c.todos.isEmpty = true) : Plannable c' := by
  intro he
  rw [hgoal, Plan.ofGoal_isSome _ c.nextId]
  exact h (htodos he)

theorem plan_isEmpty {c c' : WorkContext} (h : plan c = some c') (he : c'.todos.isEmpty = true) :
    c.todos.isEmpty = true := by
  obtain ⟨ids, hheld⟩ := (plan_grown h).2
  simp only [TodoList.isEmpty, List.isEmpty_iff] at he ⊢
  simp only [TodoList.held, he, List.map_nil, List.nil_eq, List.append_eq_nil_iff, List.map_eq_nil_iff] at hheld
  exact hheld.1

variable {ω : Type} {w : World ω} {digest : List UInt8 → List UInt8} {s : Settings} {machineId : String}

theorem acted_isEmpty (w : World ω) (s : Settings) (r : Run ω) (he : (acted w s r).1.todos.isEmpty = true) :
    r.machine.context.data.todos.isEmpty = true := by
  have htaken : (acted w s r).1.todos.ids = (dispatch s.work r.machine.context.data r.delegator).1.todos.ids :=
    Loop.foldl_ids absorb_settles _ _
  have hgiven := TodoList.ids_of_held (Loop.dispatch_frame r.delegator r.machine.context.data.todos
    r.machine.context.data.nextId Todo.description
    (r.machine.context.data.todos.ready.take (s.work.maxSubagentCalls - r.machine.context.data.calls))).1
  have hids : (acted w s r).1.todos.ids = r.machine.context.data.todos.ids := htaken.trans hgiven
  simp only [TodoList.isEmpty, List.isEmpty_iff] at he ⊢
  simpa [TodoList.ids, he] using hids.symm

/-! ## The way of a run -/

def round : List WorkState := [.plan, .act, .synthesize, .evaluate]

def rounds (k : Nat) : List WorkState := (List.replicate k round).flatten

/-- the states of a whole run with so many rounds -/
def route (k : Nat) : List WorkState := .intake :: (rounds k ++ [.done])

theorem rounds_succ (k : Nat) : rounds (k + 1) = rounds k ++ round := by
  simp [rounds, List.replicate_succ']

theorem length_rounds (k : Nat) : (rounds k).length = 4 * k := by
  simp [rounds, round, List.length_flatten, mul_comm]

/-- a round as far as a state; what comes after a round is put at its end -/
def upTo : WorkState → List WorkState
  | .plan => [.plan]
  | .act => [.plan, .act]
  | .synthesize => [.plan, .act, .synthesize]
  | .evaluate => round
  | .done => round ++ [.done]
  | _ => []

/-- the way to a state in the `i`-th round -/
def way (i : Nat) (state : WorkState) : List WorkState := .intake :: (rounds (i - 1) ++ upTo state)

theorem way_act (i : Nat) : way i .act = way i .plan ++ [.act] := by simp [way, upTo]

theorem way_synthesize (i : Nat) : way i .synthesize = way i .act ++ [.synthesize] := by simp [way, upTo]

theorem way_evaluate (i : Nat) : way i .evaluate = way i .synthesize ++ [.evaluate] := by simp [way, upTo, round]

theorem way_done (i : Nat) : way i .done = way i .evaluate ++ [.done] := by simp [way, upTo]

theorem way_plan {i : Nat} (h : 1 ≤ i) : way (i + 1) .plan = way i .evaluate ++ [.plan] := by
  have hi : i + 1 - 1 = (i - 1) + 1 := by omega
  rw [way, hi, rounds_succ]
  simp [way, upTo]

theorem way_route {i : Nat} (h : 1 ≤ i) : way i .done = route i := by
  obtain ⟨k, rfl⟩ : ∃ k, i = k + 1 := ⟨i - 1, by omega⟩
  simp [way, upTo, route, rounds_succ]

example : Machine.legs "work" (route 2) =
    [⟨"work", .intake, .plan⟩, ⟨"work", .plan, .act⟩, ⟨"work", .act, .synthesize⟩, ⟨"work", .synthesize, .evaluate⟩,
      ⟨"work", .evaluate, .plan⟩, ⟨"work", .plan, .act⟩, ⟨"work", .act, .synthesize⟩,
      ⟨"work", .synthesize, .evaluate⟩, ⟨"work", .evaluate, .done⟩] := rfl

theorem length_way (i : Nat) (state : WorkState) : (way i state).length = 4 * (i - 1) + (upTo state).length + 1 := by
  simp [way, length_rounds]

/-! ## Runs on course -/

/-- a run on its `n`-th boundary has come by whole rounds, no more than the budget has -/
structure OnCourse (s : Settings) (n : Nat) (r : Run ω) : Prop where
  came : r.machine.CameBy (way r.machine.context.data.iteration r.machine.state)
  steps : r.machine.state ≠ .done →
    n + 1 = (way r.machine.context.data.iteration r.machine.state).length
  first : r.machine.state = .intake → r.machine.context.data.iteration = 0
  within : r.machine.state ≠ .intake →
    1 ≤ r.machine.context.data.iteration ∧ r.machine.context.data.iteration ≤ s.work.maxIterations
  reason : r.machine.state = .done → r.machine.context.data.stopReason.isSome = true

theorem decided_none {r : Run ω} (h : decided w digest s r = none) :
    r.machine.context.data.iteration < s.work.maxIterations := by
  unfold decided decideStop at h
  split_ifs at h with hrisk hstagnant hspent
  simp only [isSpent, Bool.or_eq_true, decide_eq_true_eq, not_or] at hspent
  exact not_le.1 hspent.1.1

/-- **A step keeps a run on course**, unless it fails. -/
theorem OnCourse.next {n : Nat} {r : Run ω} (h : OnCourse s n r) (hmax : 1 ≤ s.work.maxIterations)
    (hr : Ruled machineId r) (hf : r.machine.state ≠ .failed)
    (hf' : (next w digest s r).machine.state ≠ .failed) : OnCourse s (n + 1) (next w digest s r) := by
  by_cases hd : r.machine.state = .done
  · rw [next_done hd]
    exact ⟨h.came, fun hne => absurd hd hne, h.first, h.within, h.reason⟩
  -- it is enough to know the state and the context that a step leads to, and that the way is longer by that state
  have hcame := next_cameBy w digest s hr h.came hd hf
  have hsteps := h.steps hd
  have hon : ∀ {state c d world}, (WorkLoop.next w digest s r).At state c d world →
      way c.iteration state = way r.machine.context.data.iteration r.machine.state ++ [state] →
      state ≠ .intake → (state = .done → c.stopReason.isSome = true) → 1 ≤ c.iteration →
      c.iteration ≤ s.work.maxIterations → OnCourse s (n + 1) (WorkLoop.next w digest s r) := by
    intro state c d world hat hway hintake hreason hpos hle
    rw [hat.state, ← hway] at hcame
    refine ⟨?_, ?_, ?_, ?_, ?_⟩
    · rwa [hat.state, hat.data]
    · intro _
      rw [hat.state, hat.data, hway, List.length_append, List.length_singleton, ← hsteps]
    · intro hs
      exact absurd (hat.state.symm.trans hs) hintake
    · intro _
      rw [hat.data]
      exact ⟨hpos, hle⟩
    · intro hs
      rw [hat.data]
      exact hreason (hat.state.symm.trans hs)
  cases hs : r.machine.state with
  | intake =>
    cases hg : Text.allBlank r.machine.context.data.goal with
    | true =>
      exact absurd (next_blank w digest s hr hs hg).state hf'
    | false =>
      have hzero := h.first hs
      refine hon (next_intake w digest s hr hs hg) ?_ (by decide) (by simp) (by simp) ?_
      · rw [hzero, hs]
        rfl
      · simpa [hzero] using hmax
  | plan =>
    obtain ⟨hpos, hle⟩ := h.within (by simp [hs])
    cases hc : plan r.machine.context.data with
    | none =>
      exact absurd (next_noPlan w digest s hr hs hc).state hf'
    | some c =>
      obtain ⟨todos, next, heq⟩ := plan_eq hc
      have hiteration : c.iteration = r.machine.context.data.iteration := by rw [heq]
      refine hon (next_plan w digest s hr hs hc) ?_ (by decide) (by simp) ?_ ?_
      · rw [hiteration, hs, way_act]
      · rwa [hiteration]
      · rwa [hiteration]
  | act =>
    obtain ⟨hpos, hle⟩ := h.within (by simp [hs])
    have hframe := (acted_gathered w s r).frame
    refine hon (next_act w digest s hr hs) ?_ (by decide) (by simp) ?_ ?_
    · rw [hframe.iteration, hs, way_synthesize]
    · rwa [hframe.iteration]
    · rwa [hframe.iteration]
  | synthesize =>
    obtain ⟨hpos, hle⟩ := h.within (by simp [hs])
    refine hon (next_synthesize w digest s hr hs) ?_ (by decide) (by simp) hpos hle
    rw [hs, way_evaluate]
  | evaluate =>
    obtain ⟨hpos, hle⟩ := h.within (by simp [hs])
    have hnext := next_evaluate w digest s hr hs
    cases hdec : decided w digest s r with
    | some reason =>
      simp only [hdec] at hnext
      refine hon hnext ?_ (by decide) (by simp) hpos hle
      rw [hs]
      exact way_done _
    | none =>
      simp only [hdec] at hnext
      refine hon hnext ?_ (by decide) (by simp) (Nat.le_add_left _ _) (decided_none hdec)
      rw [hs]
      exact way_plan hpos
  | done => exact absurd hs hd
  | failed => exact absurd hs hf

/-- **A run that has not failed is on course.** -/
theorem onCourse (w : World ω) (digest : List UInt8 → List UInt8) {r : Run ω} (hs : s.validate = .ok ())
    (hr : Ruled machineId r) (h : OnCourse s 0 r) (n : Nat)
    (hf : (boundary w digest s n r).machine.state ≠ .failed) : OnCourse s n (boundary w digest s n r) := by
  refine along w digest s (P := fun n q => q.machine.state ≠ .failed → OnCourse s n q) hr (fun _ => h) ?_ n hf
  intro n q hq ih hf'
  have hf : q.machine.state ≠ .failed := by
    intro hf
    rw [next_failed hq hf] at hf'
    exact hf' hf
  exact (ih hf).next ((Settings.validate_ok hs).workRounds) hq hf hf'

/-- what a run needs in order not to fail: a goal, and a way to plan -/
structure Fed (c : WorkContext) : Prop where
  goal : Text.allBlank c.goal = false
  plannable : Plannable c

/-- **A run that is fed does not fail**, and a step leaves it fed -/
theorem Fed.next {r : Run ω} (h : Fed r.machine.context.data) (hr : Ruled machineId r)
    (hf : r.machine.state ≠ .failed) :
    Fed (next w digest s r).machine.context.data ∧ (next w digest s r).machine.state ≠ .failed := by
  have hon : ∀ {state c d world}, (WorkLoop.next w digest s r).At state c d world → state ≠ .failed →
      c.goal = r.machine.context.data.goal →
      (c.todos.isEmpty = true → r.machine.context.data.todos.isEmpty = true) →
      Fed (WorkLoop.next w digest s r).machine.context.data ∧
        (WorkLoop.next w digest s r).machine.state ≠ .failed := by
    intro state c d world hat hfail hgoal htodos
    rw [hat.state, hat.data]
    exact ⟨⟨hgoal ▸ h.goal, h.plannable.mono hgoal htodos⟩, hfail⟩
  cases hs : r.machine.state with
  | intake => exact hon (next_intake w digest s hr hs h.goal) (by decide) rfl fun he => he
  | plan =>
    obtain ⟨c, hc⟩ := h.plannable.plan
    obtain ⟨todos, next, heq⟩ := plan_eq hc
    have hgoal : c.goal = r.machine.context.data.goal := by rw [heq]
    exact hon (next_plan w digest s hr hs hc) (by decide) hgoal (plan_isEmpty hc)
  | act => exact hon (next_act w digest s hr hs) (by decide) (acted_gathered w s r).frame.goal (acted_isEmpty w s r)
  | synthesize => exact hon (next_synthesize w digest s hr hs) (by decide) rfl fun he => he
  | evaluate =>
    have hnext := next_evaluate w digest s hr hs
    cases hdec : decided w digest s r with
    | some reason =>
      simp only [hdec] at hnext
      exact hon hnext (by decide) rfl fun he => he
    | none =>
      simp only [hdec] at hnext
      exact hon hnext (by decide) rfl fun he => he
  | done =>
    rw [next_done hs]
    exact ⟨h, hf⟩
  | failed => exact absurd hs hf

theorem Fed.unfailed (w : World ω) (digest : List UInt8 → List UInt8) (s : Settings) {r : Run ω}
    (h : Fed r.machine.context.data) (hr : Ruled machineId r) (hf : r.machine.state ≠ .failed) (n : Nat) :
    (boundary w digest s n r).machine.state ≠ .failed :=
  (along w digest s (P := fun _ q => Fed q.machine.context.data ∧ q.machine.state ≠ .failed) hr ⟨h, hf⟩
    (fun _ _ hq ih => ih.1.next hq ih.2) n).2

/-- **After `stepBound` steps a run on course is done**: its way would be longer than the budget of rounds allows -/
theorem onCourse_done {n : Nat} {r : Run ω} (h : OnCourse s n r) (hn : stepBound s ≤ n) : r.machine.state = .done := by
  by_contra hd
  have hsteps := h.steps hd
  rw [length_way] at hsteps
  unfold stepBound at hn
  by_cases hi : r.machine.state = .intake
  · rw [hi, h.first hi] at hsteps
    simp only [upTo, List.length_nil] at hsteps
    omega
  · obtain ⟨hpos, hle⟩ := h.within hi
    have hround : (upTo r.machine.state).length ≤ 4 := by
      cases hs : r.machine.state <;> first | decide | exact absurd hs hd
    omega

/-! ## Whole runs -/

theorem started_onCourse (registry : Registry) (id : String) (observers : Nat) (hasStore : Bool) (goal : String)
    (changes : ChangeSet) (todos : List Todo) (nextId : Nat) (world : ω) :
    OnCourse s 0 (started s registry id observers hasStore (.start goal changes todos nextId) world) := by
  refine ⟨Machine.start_cameBy _ _ _ _, fun _ => rfl, fun _ => rfl, fun hne => absurd rfl hne, fun hd => ?_⟩
  simp [started, Machine.start, rules] at hd

/-- a run that has just begun, under valid settings -/
structure Fresh (s : Settings) (machineId : String) (r : Run ω) : Prop where
  valid : s.validate = .ok ()
  ruled : Ruled machineId r
  state : r.machine.state = .intake
  knows : Knows [] r.machine.state r.machine.context.data
  course : OnCourse s 0 r
  undecided : r.machine.context.data.stopReason = none
  uncompared : r.machine.context.data.fingerprint = none

theorem begin_fresh {registry : Registry} {id : String} {observers : Nat} {hasStore : Bool} {goal : String}
    {changes : ChangeSet} {todos : List Todo} {nextId : Nat} {world : ω} {r : Run ω}
    (h : begin s registry id observers hasStore (.start goal changes todos nextId) world = .ok r) : Fresh s id r := by
  obtain ⟨hs, rfl⟩ := begin_started h
  exact ⟨hs, started_ruled .., rfl, start_knows goal changes todos nextId,
    started_onCourse registry id observers hasStore goal changes todos nextId world, rfl, rfl⟩

theorem start_fed {goal : String} (changes : ChangeSet) {todos : List Todo} {nextId : Nat}
    (hg : Text.allBlank goal = false) (hp : todos = [] → (Plan.ofGoal nextId goal).isSome = true) :
    Fed (.start goal changes todos nextId) := by
  refine ⟨hg, fun he => hp ?_⟩
  have hnone : (TodoList.ofList todos).isEmpty = true := he
  rwa [TodoList.ofList_isEmpty, List.isEmpty_iff] at hnone

/-- **A run that never fails is done in the end**, and its outcome is read off its last boundary. -/
theorem run_done {r : Run ω} (hs : s.validate = .ok ()) (hr : Ruled machineId r) (h : OnCourse s 0 r)
    (hf : (boundary w digest s (stepBound s) r).machine.state ≠ .failed) :
    let q := boundary w digest s (stepBound s) r
    q.machine.state = .done ∧ ∃ reason, q.machine.context.data.stopReason = some reason ∧
      run w digest s r =
        (.ok ⟨reason, q.machine.context.data.iteration, q.machine.context.data.calls, q.machine.context.data.evidence,
          q.machine.context.data.ledger.findings, q.machine.context.data.todos.items, q.machine.history⟩,
        { q with delegator := q.delegator.abandon true }) := by
  intro q
  have hcourse := onCourse w digest hs hr h (stepBound s) hf
  have hdone := onCourse_done hcourse le_rfl
  have hdrive := drive_eq w digest s hr hf
  obtain ⟨reason, hreason⟩ := Option.isSome_iff_exists.1 (hcourse.reason hdone)
  refine ⟨hdone, reason, hreason, ?_⟩
  simp only [run, hdrive, Run.outcome, hreason, q]

theorem run_blank {r : Run ω} (hr : Ruled machineId r) (hs : r.machine.state = .intake)
    (hg : Text.allBlank r.machine.context.data.goal = true) :
    run w digest s r = (.error (.handler "INTAKE" "goal must not be empty"),
      { r.moved .failed with delegator := r.delegator.abandon true }) := by
  have hstep : step w digest s r = .error (.handler "INTAKE" "goal must not be empty", r) := by
    simp [step, handle, hs, hg]
  have hdrive : drive w digest s (stepBound s) r = .error (.handler "INTAKE" "goal must not be empty", r) := by
    rw [stepBound, drive, hstep]
    simp [hs]
  have hfailed : r.failed = r.moved .failed := by
    have hallowed : (r.machine.state, WorkState.failed) ∈ table := by
      rw [hs]
      decide
    simp [Run.failed, hr.moveTo hallowed, Except.toOption]
  simp only [run, hdrive, hfailed]

/-- **Every run is made of rounds, or ends at intake.** Take any settings that are valid, any goal, todos, subagents,
and any world. With a goal that is not blank, and that can be cut if there are no todos, the run is done: intake, then
so many rounds as were counted, at least one and no more than the budget has. With a blank goal it ends at intake, and
nothing is dispatched. -/
theorem run_rounds (w : World ω) (digest : List UInt8 → List UInt8) (s : Settings) (hs : s.validate = .ok ())
    (registry : Registry) (id : String) (observers : Nat) (hasStore : Bool) (goal : String) (changes : ChangeSet)
    (todos : List Todo) (nextId : Nat) (world : ω) :
    ∃ r, begin s registry id observers hasStore (.start goal changes todos nextId) world = .ok r ∧
      (Text.allBlank goal = false → (todos = [] → (Plan.ofGoal nextId goal).isSome = true) →
        ∃ o, (run w digest s r).1 = .ok o ∧ (run w digest s r).2.machine.state = .done ∧
          1 ≤ o.iterations ∧ o.iterations ≤ s.work.maxIterations ∧
          o.history = Machine.legs id (route o.iterations)) ∧
      (Text.allBlank goal = true →
        (run w digest s r).1 = .error (.handler "INTAKE" "goal must not be empty") ∧
          (run w digest s r).2.machine.state = .failed ∧
          (run w digest s r).2.machine.history = [⟨id, .intake, .failed⟩] ∧
          (run w digest s r).2.delegator.next = 0 ∧ (run w digest s r).2.delegator.dispatched = 0 ∧
          (run w digest s r).2.world = world) := by
  have hruled := started_ruled s registry id observers hasStore (.start goal changes todos nextId) world
  refine ⟨_, begin_ok hs registry id observers hasStore _ world, ?_, ?_⟩
  · intro hg hp
    have hstart := started_onCourse (s := s) registry id observers hasStore goal changes todos nextId world
    have hfed : Fed (started s registry id observers hasStore (.start goal changes todos nextId)
        world).machine.context.data := start_fed changes hg hp
    have hf := hfed.unfailed w digest s hruled (by simp [started, Machine.start, rules]) (stepBound s)
    obtain ⟨hdone, reason, hreason, hrun⟩ := run_done hs hruled hstart hf
    have hcourse := onCourse w digest hs hruled hstart (stepBound s) hf
    obtain ⟨hpos, hle⟩ := hcourse.within (by simp [hdone])
    refine ⟨_, congrArg Prod.fst hrun, ?_, hpos, hle, ?_⟩
    · rw [hrun]
      exact hdone
    · have hid := congrArg Definition.id (hruled.boundary w digest s (stepBound s))
      have hhistory := hcourse.came.history
      rw [hdone, way_route hpos] at hhistory
      rw [hhistory]
      exact congrArg (fun i => Machine.legs i _) hid
  · intro hg
    rw [run_blank hruled rfl hg]
    exact ⟨rfl, rfl, rfl, rfl, rfl, rfl⟩

/-- the start of a run with a goal that is one task, which makes three todos, each waiting for the one before -/
def oneTask : Run Nat := started {} .standard "work" 0 false (.start "look" ⟨[]⟩ [] 0) 0

theorem begin_oneTask : begin {} .standard "work" 0 false (.start "look" ⟨[]⟩ [] 0) 0 = .ok oneTask :=
  begin_ok (by decide +kernel) ..

/-- one task takes three rounds -/
theorem run_rounds_chain :
    (∃ r, begin {} .standard "work" 0 false (.start "look" ⟨[]⟩ [] 0) 0 = .ok r ∧
        ∃ o, (run (.inTurn fun _ => .ok .blank) (fun x => x) {} r).1 = .ok o ∧ o.iterations = 3 ∧
          o.history = Machine.legs "work" (route o.iterations)) ∧
      ∃ r, begin {} .standard "work" 0 false (.start " " ⟨[]⟩ [] 0) 0 = .ok r ∧
        (run (.inTurn fun _ => .ok .blank) (fun x => x) {} r).2.machine.history = [⟨"work", .intake, .failed⟩] := by
  have hvalid : Settings.validate {} = .ok () := by decide +kernel
  constructor
  · obtain ⟨r, hr, hrun, -⟩ := run_rounds (.inTurn fun _ => .ok .blank) (fun x => x) {} hvalid .standard "work" 0 false
      "look" ⟨[]⟩ [] 0 0
    obtain ⟨o, ho, -, -, -, hhistory⟩ := hrun (by decide) fun _ => by decide +kernel
    refine ⟨r, hr, o, ho, ?_, hhistory⟩
    have hthree : (begin {} .standard "work" 0 false (.start "look" ⟨[]⟩ [] 0) 0).toOption.bind (fun r =>
        (run (.inTurn fun _ => .ok .blank) (fun x => x) {} r).1.toOption.map WorkOutcome.iterations) = some 3 := by
      decide +kernel
    simpa [hr, ho, Except.toOption] using hthree
  · obtain ⟨r, hr, -, hblank⟩ := run_rounds (.inTurn fun _ => .ok .blank) (fun x => x) {} hvalid .standard "work" 0
      false " " ⟨[]⟩ [] 0 0
    exact ⟨r, hr, (hblank (by decide)).2.2.1⟩

end WorkLoop

end Foreman

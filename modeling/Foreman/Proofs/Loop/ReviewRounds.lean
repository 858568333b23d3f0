/-
The rounds of a review.

After exploring a review goes through rounds of delegating and reviewing, with a state between two rounds in which todos
are made of what was suggested. The budget of rounds is looked at twice: by the handler that reviews, and by a guard on
the move into another round. Both read the number that entering a round counts, and nothing in between changes it; so
the guard never refuses a move that the handler has chosen, and a review that has its changes is completed, whatever
its tasks bring.

Results:
- `onCourse`:       a review that has its changes comes by whole rounds and never fails.
- `OnCourse.again`: another round follows exactly if work and rounds are left.
- `review_rounds`:  every review is made of rounds and completed, or has no changes and fails while exploring.
-/
import Foreman.Proofs.Loop.Harvest
import Foreman.Proofs.Loop.ReviewSteps
import Foreman.Proofs.Settings
import Foreman.Proofs.Todo.Status

namespace Foreman.ReviewLoop

/-! ## What steps leave alone -/

theorem explore_frame (scanners : List Scanner) (changes : ChangeSet) (c : ReviewContext) :
    (explore scanners changes c).iteration = c.iteration ∧ (explore scanners changes c).followUps = c.followUps := by
  have hscans : ∀ a : ReviewContext, (scanners.foldl scan a).iteration = a.iteration ∧
      (scanners.foldl scan a).followUps = a.followUps := by
    induction scanners with
    | nil => exact fun a => ⟨rfl, rfl⟩
    | cons scanner scanners ih =>
      intro a
      have hscan : (scan a scanner).iteration = a.iteration ∧ (scan a scanner).followUps = a.followUps := by
        unfold scan
        cases scanner.scan a.changes <;> exact ⟨rfl, rfl⟩
      exact ⟨(ih _).1.trans hscan.1, (ih _).2.trans hscan.2⟩
  unfold explore
  obtain ⟨hiteration, hfollowUps⟩ := hscans _
  refine ⟨hiteration.trans ?_, hfollowUps.trans ?_⟩ <;> dsimp only <;> split_ifs <;> rfl

theorem foldl_collect (ts : List Task) (c : ReviewContext) (d : Delegator) :
    (ts.foldl collect (c, d)).1.iteration = c.iteration ∧
      (ts.foldl collect (c, d)).1.followUps = c.followUps ++ (payloads ts).flatMap Payload.followUps := by
  induction ts generalizing c d with
  | nil => simp [payloads]
  | cons t ts ih =>
    obtain ⟨hiteration, hfollowUps⟩ := ih (collect (c, d) t).1 (collect (c, d) t).2
    rw [List.foldl_cons]
    refine ⟨hiteration.trans ?_, hfollowUps.trans ?_⟩
    · cases hr : t.result <;> simp [collect, collectPayload, hr]
    · cases hr : t.result <;> simp [collect, collectPayload, payloads, hr]

/-! ## The way of a review -/

/-- the states of a round that another one follows -/
def round : List ReviewState := [.delegating, .reviewing, .creatingTasks]

def rounds (k : Nat) : List ReviewState := (List.replicate k round).flatten

/-- the states of a whole review with so many rounds -/
def route (k : Nat) : List ReviewState :=
  .idle :: .exploring :: (rounds (k - 1) ++ [.delegating, .reviewing, .assessing, .completed])

theorem rounds_succ (k : Nat) : rounds (k + 1) = rounds k ++ round := by
  simp [rounds, List.replicate_succ']

theorem length_rounds (k : Nat) : (rounds k).length = 3 * k := by
  simp [rounds, round, List.length_flatten, mul_comm]

theorem count_rounds (k : Nat) : (rounds k).count .delegating = k := by
  induction k with
  | zero => rfl
  | succ k ih =>
    rw [rounds_succ, List.count_append, ih]
    rfl

/-- a round as far as a state -/
def upTo : ReviewState → List ReviewState
  | .delegating => [.delegating]
  | .reviewing => [.delegating, .reviewing]
  | .creatingTasks => round
  | .assessing => [.delegating, .reviewing, .assessing]
  | .completed => [.delegating, .reviewing, .assessing, .completed]
  | _ => []

/-- the way to a state, which is in the `i`-th round if it is in one -/
def way (i : Nat) : ReviewState → List ReviewState
  | .idle => [.idle]
  | .exploring => [.idle, .exploring]
  | state => .idle :: .exploring :: (rounds (i - 1) ++ upTo state)

theorem way_exploring (i : Nat) : way i .exploring = way i .idle ++ [.exploring] := rfl

theorem way_delegating (i : Nat) : way 1 .delegating = way i .exploring ++ [.delegating] := rfl

theorem way_reviewing (i : Nat) : way i .reviewing = way i .delegating ++ [.reviewing] := by simp [way, upTo]

theorem way_creatingTasks (i : Nat) : way i .creatingTasks = way i .reviewing ++ [.creatingTasks] := by
  simp [way, upTo, round]

theorem way_assessing (i : Nat) : way i .assessing = way i .reviewing ++ [.assessing] := by simp [way, upTo]

theorem way_completed (i : Nat) : way i .completed = way i .assessing ++ [.completed] := by simp [way, upTo]

theorem way_route (i : Nat) : way i .completed = route i := rfl

theorem way_again {i : Nat} (h : 1 ≤ i) : way (i + 1) .delegating = way i .creatingTasks ++ [.delegating] := by
  have hi : i + 1 - 1 = (i - 1) + 1 := by omega
  simp [way, upTo, hi, rounds_succ]

example : Machine.legs "review" (route 2) =
    [⟨"review", .idle, .exploring⟩, ⟨"review", .exploring, .delegating⟩, ⟨"review", .delegating, .reviewing⟩,
      ⟨"review", .reviewing, .creatingTasks⟩, ⟨"review", .creatingTasks, .delegating⟩,
      ⟨"review", .delegating, .reviewing⟩, ⟨"review", .reviewing, .assessing⟩,
      ⟨"review", .assessing, .completed⟩] := rfl

/-- before a review is completed its way is no longer than its rounds allow -/
theorem length_way {i max : Nat} {state : ReviewState} (hi : 1 ≤ i ∨ state = .idle ∨ state = .exploring)
    (hmax : 1 ≤ max) (hle : i ≤ max) (hd : state ≠ .completed) : (way i state).length ≤ 3 * max + 2 := by
  cases state <;> simp only [way, upTo, round, List.length_cons, List.length_append, length_rounds, List.length_nil]
  case completed => exact absurd rfl hd
  all_goals omega

variable {ω : Type} {w : World ω} {s : Settings} {b : Brief} {machineId : String}

/-! ## Reviews on course -/

/-- the states in which nothing is suggested: what was, todos have been made of -/
def quiet : List ReviewState := [.idle, .exploring, .delegating, .reviewing]

/-- what a review knows in a state, as far as rounds go -/
structure Fits (s : Settings) (state : ReviewState) (c : ReviewContext) : Prop where
  unfailed : state ≠ .failed
  first : Early state → c.iteration = 0
  within : ¬ Early state → 1 ≤ c.iteration ∧ c.iteration ≤ s.review.maxIterations
  /-- where the guard is asked, the handler has looked at the budget -/
  left : state = .creatingTasks → c.iteration < s.review.maxIterations
  unasked : state ∈ quiet → c.followUps = []
  verdict : state = .completed → c.assessment.isSome = true

/-- a review on its `n`-th boundary has come by whole rounds, no more than the budget has, and has not failed -/
structure OnCourse (s : Settings) (n : Nat) (r : Run ω) : Prop where
  came : r.machine.CameBy (way r.machine.context.data.iteration r.machine.state)
  steps : r.machine.state ≠ .completed → n + 1 = (way r.machine.context.data.iteration r.machine.state).length
  fits : Fits s r.machine.state r.machine.context.data

/-- it is enough to know the state and the context that a step leads to, and that the way is longer by that state -/
theorem OnCourse.leads {n : Nat} {r : Run ω} (h : OnCourse s n r) (hr : Ruled machineId s r)
    (hd : r.machine.state ≠ .completed) {state : ReviewState} {c : ReviewContext} {d : Delegator} {world : ω}
    (hat : (next w s b r).At state c d world)
    (hway : way c.iteration state = way r.machine.context.data.iteration r.machine.state ++ [state])
    (hfits : Fits s state c) : OnCourse s (n + 1) (next w s b r) := by
  have hcame := next_cameBy w s b hr h.came hd h.fits.unfailed
  have hsteps := h.steps hd
  rw [hat.state, ← hway] at hcame
  refine ⟨?_, ?_, ?_⟩
  · rwa [hat.state, hat.data]
  · intro _
    rw [hat.state, hat.data, hway, List.length_append, List.length_singleton, ← hsteps]
  · rwa [hat.state, hat.data]

theorem reviewed_frame (w : World ω) (r : Run ω) :
    (reviewed w r).1.iteration = r.machine.context.data.iteration ∧
      (reviewed w r).1.followUps =
        r.machine.context.data.followUps ++ (payloads (performed w r).2.2).flatMap Payload.followUps :=
  foldl_collect _ _ _

/-- **A step keeps a review on course**, if it has its changes. -/
theorem OnCourse.next {n : Nat} {r : Run ω} (h : OnCourse s n r) (hmax : 1 ≤ s.review.maxIterations)
    (hr : Ruled machineId s r) {changes : ChangeSet} (hb : b.changes = .ok changes) :
    OnCourse s (n + 1) (next w s b r) := by
  have hf := h.fits
  cases hs : r.machine.state with
  | idle =>
    rw [hs] at hf
    refine h.leads hr (by simp [hs]) (next_idle w s b hr hs) ?_ ?_
    · rw [hs, way_exploring]
    · exact ⟨by decide, fun _ => hf.first (Or.inl rfl), by simp [Early], by simp, fun _ => hf.unasked (by simp [quiet]),
        by simp⟩
  | exploring =>
    rw [hs] at hf
    obtain ⟨hiteration, hfollowUps⟩ := explore_frame b.scanners changes r.machine.context.data
    have hone : (explore b.scanners changes r.machine.context.data).iteration + 1 = 1 := by
      rw [hiteration, hf.first (Or.inr rfl)]
    refine h.leads hr (by simp [hs]) (next_exploring w s b hr hs hb) ?_ ?_
    · simp only [hone, hs]
      exact way_delegating _
    · refine ⟨by decide, by simp [Early], fun _ => ?_, by simp, fun _ => ?_, by simp⟩
      · simp only [hone]
        exact ⟨le_rfl, hmax⟩
      · exact hfollowUps.trans (hf.unasked (by simp [quiet]))
  | delegating =>
    rw [hs] at hf
    refine h.leads hr (by simp [hs]) (next_delegating w s b hr hs) ?_ ?_
    · rw [hs]
      exact way_reviewing _
    · exact ⟨by decide, by simp [Early], fun _ => hf.within (by simp [Early]), by simp,
        fun _ => hf.unasked (by simp [quiet]), by simp⟩
  | reviewing =>
    rw [hs] at hf
    have hwithin := hf.within (by simp [Early])
    have hiteration := (reviewed_frame w r).1
    have hnext := next_reviewing w s b hr hs
    cases hgo : goesOn s (reviewed w r).1 with
    | true =>
      simp only [hgo, if_true] at hnext
      simp only [goesOn, Bool.and_eq_true, decide_eq_true_eq] at hgo
      refine h.leads hr (by simp [hs]) hnext ?_ ?_
      · rw [hiteration, hs, way_creatingTasks]
      · exact ⟨by decide, by simp [Early], fun _ => hiteration ▸ hwithin, fun _ => hgo.2, by simp [quiet], by simp⟩
    | false =>
      simp only [hgo, Bool.false_eq_true, if_false] at hnext
      refine h.leads hr (by simp [hs]) hnext ?_ ?_
      · rw [hiteration, hs, way_assessing]
      · exact ⟨by decide, by simp [Early], fun _ => hiteration ▸ hwithin, by simp, by simp [quiet], by simp⟩
  | creatingTasks =>
    rw [hs] at hf
    have hleft := hf.left rfl
    refine h.leads hr (by simp [hs]) (next_creatingTasks w s b hr hs hleft) ?_ ?_
    · rw [hs]
      exact way_again (hf.within (by simp [Early])).1
    · exact ⟨by decide, by simp [Early], fun _ => ⟨Nat.le_add_left _ _, hleft⟩, by simp, fun _ => rfl, by simp⟩
  | assessing =>
    rw [hs] at hf
    refine h.leads hr (by simp [hs]) (next_assessing w s b hr hs) ?_ ?_
    · rw [hs]
      exact way_completed _
    · exact ⟨by decide, by simp [Early], fun _ => hf.within (by simp [Early]), by simp, by simp [quiet], fun _ => rfl⟩
  | completed =>
    rw [next_completed hs]
    exact ⟨h.came, fun hd => absurd hs hd, h.fits⟩
  | failed => exact absurd hs hf.unfailed

/-- **A review that has its changes is on course.** -/
theorem onCourse (w : World ω) {r : Run ω} (hs : s.validate = .ok ()) (hr : Ruled machineId s r)
    (h : OnCourse s 0 r) {changes : ChangeSet} (hb : b.changes = .ok changes) (n : Nat) :
    OnCourse s n (boundary w s b n r) :=
  along w s b (P := fun n q => OnCourse s n q) hr h
    (fun _ _ hq ih => ih.next (Settings.validate_ok hs).reviewRounds hq hb) n

/-- **After `stepBound` steps a review on course is completed**: its way would be longer than the budget allows -/
theorem onCourse_completed {n : Nat} {r : Run ω} (h : OnCourse s n r) (hmax : 1 ≤ s.review.maxIterations)
    (hn : stepBound s ≤ n) : r.machine.state = .completed := by
  by_contra hd
  have hsteps := h.steps hd
  have hle : (way r.machine.context.data.iteration r.machine.state).length ≤ 3 * s.review.maxIterations + 2 := by
    by_cases he : Early r.machine.state
    · exact length_way (Or.inr he) hmax (by rw [h.fits.first he]; exact Nat.zero_le _) hd
    · obtain ⟨hpos, hle⟩ := h.fits.within he
      exact length_way (Or.inl hpos) hmax hle hd
  unfold stepBound at hn
  omega

/-! ## Rounds that are entered -/

/-- how often a review has entered a round of delegating -/
def entered (r : Run ω) : Nat := r.machine.history.countP fun m => m.target = .delegating

theorem count_way {i : Nat} {state : ReviewState} (hi : 1 ≤ i) (he : ¬ Early state) (hf : state ≠ .failed) :
    (way i state).tail.count .delegating = i := by
  have hlast : (upTo state).count .delegating = 1 := by
    cases state <;> first | rfl | exact absurd rfl hf | simp [Early] at he
  have hway : (way i state).tail = .exploring :: (rounds (i - 1) ++ upTo state) := by
    cases state <;> first | rfl | simp [Early] at he
  rw [hway, List.count_cons_of_ne (by decide), List.count_append, count_rounds, hlast]
  omega

/-- **The rounds that a review counts are those that it has entered.** -/
theorem OnCourse.entered {n : Nat} {r : Run ω} (h : OnCourse s n r) :
    entered r = r.machine.context.data.iteration := by
  have htargets : ReviewLoop.entered r = (r.machine.history.map Move.target).count .delegating := by
    rw [List.count, List.countP_map, ReviewLoop.entered]
    exact List.countP_congr fun m _ => by simp
  rw [htargets, h.came.history, Machine.targets_legs]
  by_cases he : Early r.machine.state
  · rw [h.fits.first he]
    rcases he with hs | hs <;> rw [hs] <;> rfl
  · exact count_way (h.fits.within he).1 he h.fits.unfailed

/-- work is left after a round of reviewing: a todo neither completed nor cancelled, or what its tasks suggest -/
def WorkRemains (w : World ω) (r : Run ω) : Prop :=
  (∃ t ∈ (reviewed w r).1.todos.items, ¬ (t.status = .completed ∨ t.status = .cancelled)) ∨
    ∃ p ∈ payloads (performed w r).2.2, p.followUps ≠ []

theorem OnCourse.goesOn_iff {n : Nat} {r : Run ω} (h : OnCourse s n r) (hs : r.machine.state = .reviewing) :
    goesOn s (reviewed w r).1 = true ↔ WorkRemains w r ∧ ReviewLoop.entered r < s.review.maxIterations := by
  obtain ⟨hiteration, hfollowUps⟩ := reviewed_frame w r
  have htodos : 0 < (reviewed w r).1.todos.unresolved ↔
      ∃ t ∈ (reviewed w r).1.todos.items, ¬ (t.status = .completed ∨ t.status = .cancelled) := by
    rw [Nat.pos_iff_ne_zero, ne_eq, TodoList.unresolved_eq_zero]
    simp only [not_forall, exists_prop]
  have hsuggested : (reviewed w r).1.followUps ≠ [] ↔ ∃ p ∈ payloads (performed w r).2.2, p.followUps ≠ [] := by
    rw [hfollowUps, h.fits.unasked (by simp [hs, quiet]), List.nil_append, ne_eq, List.flatMap_eq_nil_iff]
    simp only [not_forall, exists_prop]
  rw [goesOn, workLeft, Bool.and_eq_true, Bool.or_eq_true, decide_eq_true_eq, decide_eq_true_eq, htodos, hiteration,
    ← h.entered, WorkRemains, ← hsuggested]
  simp

/-- **Another round follows exactly if work and rounds are left.** -/
theorem OnCourse.again {n : Nat} {r : Run ω} (h : OnCourse s n r) (w : World ω) (hmax : 1 ≤ s.review.maxIterations)
    (hr : Ruled machineId s r) {changes : ChangeSet} (hb : b.changes = .ok changes)
    (hs : r.machine.state = .reviewing) :
    let q := ReviewLoop.next w s b r
    let q' := ReviewLoop.next w s b q
    (WorkRemains w r ∧ ReviewLoop.entered r < s.review.maxIterations ∧
        q.machine.state = .creatingTasks ∧ q'.machine.state = .delegating) ∨
      (¬ (WorkRemains w r ∧ ReviewLoop.entered r < s.review.maxIterations) ∧
        q.machine.state = .assessing ∧ q'.machine.state = .completed) := by
  intro q q'
  have hq : OnCourse s (n + 1) q := h.next hmax hr hb
  have hstate : q.machine.state = if goesOn s (reviewed w r).1 then .creatingTasks else .assessing :=
    (next_reviewing w s b hr hs).state
  have hgo := h.goesOn_iff (w := w) hs
  cases hg : goesOn s (reviewed w r).1 with
  | true =>
    obtain ⟨hwork, hleft⟩ := hgo.1 hg
    rw [hg, if_pos rfl] at hstate
    exact Or.inl ⟨hwork, hleft, hstate, (next_creatingTasks w s b hr.next hstate (hq.fits.left hstate)).state⟩
  | false =>
    rw [hg, if_neg (by simp)] at hstate
    refine Or.inr ⟨fun hboth => ?_, hstate, (next_assessing w s b hr.next hstate).state⟩
    rw [hgo.2 hboth] at hg
    cases hg

/-! ## Whole reviews -/

theorem started_onCourse (registry : Registry) (id : String) (observers : Nat) (hasStore : Bool) (description : String)
    (todos : List Todo) (nextId : Nat) (world : ω) :
    OnCourse s 0 (started s registry id observers hasStore (.start description todos nextId) world) := by
  have hidle : (started s registry id observers hasStore (.start description todos nextId) world).machine.state =
      .idle := rfl
  refine ⟨Machine.start_cameBy _ _ _ _, fun _ => rfl, ?_⟩
  rw [hidle]
  exact ⟨by decide, fun _ => rfl, by simp [Early], by simp, fun _ => rfl, by simp⟩

/-- **A review that has its changes is completed**, with a verdict, and stands where its last boundary is. -/
theorem run_completed {r : Run ω} (hs : s.validate = .ok ()) (hr : Ruled machineId s r) (h : OnCourse s 0 r)
    {changes : ChangeSet} (hb : b.changes = .ok changes) :
    (∃ a, (run w s b r).1 = .ok a) ∧ (run w s b r).2.machine = (boundary w s b (stepBound s) r).machine ∧
      (run w s b r).2.machine.state = .completed := by
  have hcourse := onCourse w hs hr h hb (stepBound s)
  have hdone := onCourse_completed hcourse (Settings.validate_ok hs).reviewRounds le_rfl
  have hdrive := drive_eq w s b hr hcourse.fits.unfailed
  obtain ⟨a, ha⟩ := Option.isSome_iff_exists.1 (hcourse.fits.verdict hdone)
  refine ⟨⟨a, ?_⟩, ?_, ?_⟩
  · simp only [run, hdrive, Run.outcome, ha]
  · simp only [run, hdrive]
  · simp only [run, hdrive]
    exact hdone

/-- a review without its changes fails while exploring -/
theorem run_noChanges {r : Run ω} (hr : Ruled machineId s r) (hs : r.machine.state = .idle) {causes : List String}
    (hb : b.changes = .error causes) :
    run w s b r = (.error (.handler "INITIAL_EXPLORATION" (Text.joinWith ": " causes)),
      { (r.moved .exploring).moved .failed with delegator := r.delegator.abandon true }) := by
  have hexploring : (r.moved .exploring).machine.state = .exploring := rfl
  have hfirst : step w s b r = .ok (r.moved .exploring) := by
    have hmove : r.moveTo .exploring = .ok (r.moved .exploring) :=
      hr.moveTo (by rw [hs]; decide) fun hc => by simp [hs] at hc
    simp [step, handle, hs, hmove]
  have hsecond : step w s b (r.moved .exploring) =
      .error (.handler "INITIAL_EXPLORATION" (Text.joinWith ": " causes), r.moved .exploring) := by
    simp [step, handle, hb]
  have hfailed : (r.moved .exploring).failed = (r.moved .exploring).moved .failed := by
    have hmove : (r.moved .exploring).moveTo .failed = .ok ((r.moved .exploring).moved .failed) :=
      (hr.moved .exploring).moveTo (by rw [hexploring]; decide) (by simp [Passes])
    simp [Run.failed, hmove, Except.toOption]
  have hdrive : drive w s b (stepBound s) r =
      .error (.handler "INITIAL_EXPLORATION" (Text.joinWith ": " causes), r.moved .exploring) := by
    simp [stepBound, drive, hs, hfirst, hsecond]
  simp only [run, hdrive, hfailed]
  rfl

/-- **Every review is made of rounds, or has no changes.** Take any settings that are valid, any scanners, description
and todos, subagents, and any world. If the changes can be loaded, the review is completed with a verdict: it explores,
goes through at least one round and no more than the budget has, and assesses. After each round another one follows
exactly if work is left and fewer rounds were entered than the budget has. If the changes cannot be loaded, the review
fails while exploring. -/
theorem review_rounds (w : World ω) (s : Settings) (hs : s.validate = .ok ()) (b : Brief) (registry : Registry)
    (id : String) (observers : Nat) (hasStore : Bool) (description : String) (todos : List Todo) (nextId : Nat)
    (world : ω) :
    ∃ r, begin s registry id observers hasStore (.start description todos nextId) world = .ok r ∧
      (∀ causes, b.changes = .error causes →
        (run w s b r).1 = .error (.handler "INITIAL_EXPLORATION" (Text.joinWith ": " causes)) ∧
          (run w s b r).2.machine.state = .failed ∧
          (run w s b r).2.machine.history = Machine.legs id [.idle, .exploring, .failed]) ∧
      (∀ changes, b.changes = .ok changes →
        (∃ a, (run w s b r).1 = .ok a) ∧ (run w s b r).2.machine.state = .completed ∧
          1 ≤ entered (run w s b r).2 ∧ entered (run w s b r).2 ≤ s.review.maxIterations ∧
          (run w s b r).2.machine.history = Machine.legs id (route (entered (run w s b r).2)) ∧
          ∀ n, (boundary w s b n r).machine.state = .reviewing →
            let q := boundary w s b n r
            (WorkRemains w q ∧ entered q < s.review.maxIterations ∧
                (boundary w s b (n + 1) r).machine.state = .creatingTasks ∧
                (boundary w s b (n + 2) r).machine.state = .delegating) ∨
              (¬ (WorkRemains w q ∧ entered q < s.review.maxIterations) ∧
                (boundary w s b (n + 1) r).machine.state = .assessing ∧
                (boundary w s b (n + 2) r).machine.state = .completed)) := by
  have hruled := started_ruled s registry id observers hasStore (.start description todos nextId) world
  have hstart := started_onCourse (s := s) registry id observers hasStore description todos nextId world
  have hmax := (Settings.validate_ok hs).reviewRounds
  refine ⟨_, begin_ok hs registry id observers hasStore _ world, ?_, ?_⟩
  · intro causes hb
    rw [run_noChanges hruled rfl hb]
    exact ⟨rfl, rfl, rfl⟩
  · intro changes hb
    obtain ⟨hverdict, hmachine, hdone⟩ := run_completed (w := w) hs hruled hstart hb
    have hcourse := onCourse w hs hruled hstart hb (stepBound s)
    have hid := congrArg Definition.id (hruled.boundary w s b (stepBound s))
    have hhistory := hcourse.came.history
    have hentered := hcourse.entered
    simp only [entered] at hentered
    rw [← hmachine] at hid hhistory hentered
    obtain ⟨hpos, hle⟩ := hcourse.fits.within (by rw [← hmachine, hdone]; simp [Early])
    rw [← hmachine] at hpos hle
    refine ⟨hverdict, hdone, ?_, ?_, ?_, ?_⟩
    · rwa [entered, hentered]
    · rwa [entered, hentered]
    · rw [hdone, way_route] at hhistory
      rw [entered, hentered]
      exact hhistory.trans (congrArg (fun i => Machine.legs i _) hid)
    · intro n hn
      have hagain := (onCourse w hs hruled hstart hb n).again w hmax (hruled.boundary w s b n) hb hn
      rw [boundary_succ w s b hruled (n + 1), boundary_succ w s b hruled n]
      exact hagain

def twoRounds : Settings := { review := { maxIterations := 2 } }

/-- agents that suggest more whatever they are asked -/
def asking : World Nat := .inTurn fun _ => .ok { Payload.blank with followUps := ["look at the callers"] }

/-- the budget stops suggestions that never end; without changes there is no round -/
theorem review_rounds_spent :
    (∃ r, begin twoRounds .standard "review" 0 false (.start "look" [] 0) 0 = .ok r ∧
        (∃ a, (run asking twoRounds ⟨.ok ⟨["a.py"]⟩, []⟩ r).1 = .ok a) ∧
        entered (run asking twoRounds ⟨.ok ⟨["a.py"]⟩, []⟩ r).2 = 2 ∧
        (run asking twoRounds ⟨.ok ⟨["a.py"]⟩, []⟩ r).2.machine.history = Machine.legs "review" (route 2) ∧
        WorkRemains asking (boundary asking twoRounds ⟨.ok ⟨["a.py"]⟩, []⟩ 3 r)) ∧
      ∃ r, begin twoRounds .standard "review" 0 false (.start "look" [] 0) 0 = .ok r ∧
        (run asking twoRounds ⟨.error ["no diff"], []⟩ r).2.machine.history =
          [⟨"review", .idle, .exploring⟩, ⟨"review", .exploring, .failed⟩] := by
  have hvalid : twoRounds.validate = .ok () := by decide +kernel
  constructor
  · obtain ⟨r, hr, -, hok⟩ := review_rounds asking twoRounds hvalid ⟨.ok ⟨["a.py"]⟩, []⟩ .standard "review" 0 false
      "look" [] 0 0
    obtain ⟨hverdict, -, -, -, hhistory, hagain⟩ := hok ⟨["a.py"]⟩ rfl
    refine ⟨r, hr, hverdict, ?_⟩
    obtain ⟨-, rfl⟩ := begin_started hr
    have htwo : entered (run asking twoRounds ⟨.ok ⟨["a.py"]⟩, []⟩
        (started twoRounds .standard "review" 0 false (.start "look" [] 0) 0)).2 = 2 := by decide +kernel
    rw [htwo] at hhistory
    refine ⟨htwo, hhistory, ?_⟩
    rcases hagain 3 (by decide +kernel) with ⟨hwork, -⟩ | ⟨-, hassessing, -⟩
    · exact hwork
    · exact absurd hassessing (by decide +kernel)
  · obtain ⟨r, hr, hnone, -⟩ := review_rounds asking twoRounds hvalid ⟨.error ["no diff"], []⟩ .standard "review" 0
      false "look" [] 0 0
    exact ⟨r, hr, (hnone ["no diff"] rfl).2.2⟩

end Foreman.ReviewLoop

/-
Each todo is dispatched until it is done with, and then never again.

In the work loop a round of acting dispatches todos and takes in their tasks, so between two steps nothing is in
progress. In a review these are two steps: the todos dispatched by the one are in progress until the other. All other
steps add new todos at most. So on every boundary the todos in progress are those in flight with the delegator, and
those it has processed are the ones that are completed or cancelled.

Results:
- `WorkLoop.advance`, `ReviewLoop.advance`:                     one step of either loop.
- `WorkLoop.course_atMostOnce`, `ReviewLoop.course_atMostOnce`: a run of either loop.
- `todos_at_most_once`:                                         both loops, from pending todos on.
-/
import Foreman.Proofs.Loop.Agreement
import Foreman.Proofs.Loop.Harvest
import Foreman.Proofs.Loop.ReviewSteps

namespace Foreman

/-! ## The work loop -/

namespace WorkLoop

theorem plan_widened {c c' : WorkContext} (h : plan c = some c') : TodoList.Widened c.todos c'.todos := by
  unfold plan at h
  split_ifs at h
  · cases hg : Plan.ofGoal c.nextId c.goal with
    | none => simp [hg] at h
    | some ts =>
      simp only [hg, Option.map_some, Option.bind_eq_bind, Option.bind_some, pure, Option.some.injEq] at h
      rw [← h]
      have hpending : ∀ t ∈ ts, t.status = .pending := fun t ht => (Loop.ofGoal_new hg t ht).pending
      exact (TodoList.extend_widened _ hpending).trans (Loop.planFollowUps_widened ..)
  · simp only [Option.bind_eq_bind, Option.bind_some, pure, Option.some.injEq] at h
    rw [← h]
    exact Loop.planFollowUps_widened ..

theorem Still.widened {c c' : WorkContext} (h : Still c c') : TodoList.Widened c.todos c'.todos := by
  cases h with
  | kept _ _ htodos =>
    rw [htodos]
    exact .refl _
  | planned h => exact plan_widened h

variable {ω : Type} {w : World ω} {digest : List UInt8 → List UInt8} {s : Settings} {machineId : String}

/-- what the delegator answers to the todos that a step dispatches -/
def answered (s : Settings) (r : Run ω) : List (Ident × Except DelegationError Dispatch) :=
  match r.machine.state with
  | .act =>
    let c := r.machine.context.data
    Loop.answers r.delegator c.todos c.nextId Todo.description (c.todos.ready.take (s.work.maxSubagentCalls - c.calls))
  | _ => []

theorem answered_idle {r : Run ω} (h : r.machine.state ≠ .act) : answered s r = [] := by
  cases hs : r.machine.state with
  | act => exact absurd hs h
  | _ => simp [answered, hs]

def course (w : World ω) (digest : List UInt8 → List UInt8) (s : Settings) (r : Run ω) : Loop.Course where
  todos := fun n => (boundary w digest s n r).machine.context.data.todos
  delegator := fun n => (boundary w digest s n r).delegator
  answers := fun n => answered s (boundary w digest s n r)
  joined := fun n => (harvest w s (boundary w digest s n r)).flatten

/-- what holds of a run between two steps: todos and delegator agree, and nothing is in flight -/
structure Settled (r : Run ω) : Prop where
  agreement : Loop.Agreement r.machine.context.data.todos r.delegator []
  idle : r.delegator.inFlight = []

theorem act_advance (hw : w.Finishes) {r : Run ω} (h : Settled r) (hs : r.machine.state = .act) :
    Loop.Advance r.machine.context.data.todos r.delegator (answered s r) (harvest w s r).flatten
        (acted w s r).1.todos (acted w s r).2 ∧ (acted w s r).2.inFlight = [] := by
  have hanswered : answered s r = Loop.answers r.delegator r.machine.context.data.todos
      r.machine.context.data.nextId Todo.description
      (r.machine.context.data.todos.ready.take (s.work.maxSubagentCalls - r.machine.context.data.calls)) := by
    simp [answered, hs]
  have hjoined : (harvest w s r).flatten = (performed w s r).2.2 := by rw [harvest_act hs, List.flatten_singleton]
  obtain ⟨hready, hnodup⟩ := TodoList.ready_pending h.agreement.distinct
  have hsub := List.take_sublist (s.work.maxSubagentCalls - r.machine.context.data.calls)
    r.machine.context.data.todos.ready
  have hgiven := Loop.Advance.given h.agreement r.machine.context.data.nextId Todo.description
    (fun t ht => hready t (hsub.subset ht)) (hnodup.sublist (hsub.map Todo.id))
  obtain ⟨htaken, hempty⟩ := Loop.Advance.taken hw absorb_settles
    (c := (dispatch s.work r.machine.context.data r.delegator).1) hgiven.agreement r.world
  rw [hanswered, hjoined]
  exact ⟨hgiven.trans htaken, hempty⟩

variable (digest s)

/-- **One step of a work loop** -/
theorem advance (hw : w.Finishes) {r : Run ω} (hr : Ruled machineId r) (h : Settled r) :
    Loop.Advance r.machine.context.data.todos r.delegator (answered s r) (harvest w s r).flatten
        (next w digest s r).machine.context.data.todos (next w digest s r).delegator ∧
      (next w digest s r).delegator.inFlight = [] := by
  by_cases hs : r.machine.state = .act
  · have hnext := next_act w digest s hr hs
    rw [hnext.data, hnext.delegator]
    exact act_advance hw h hs
  · obtain ⟨hd, hstill⟩ := next_still w digest s hr hs
    rw [answered_idle hs, harvest_idle hs, List.flatten_nil, hd]
    exact ⟨.idle h.agreement hstill.widened, h.idle⟩

theorem settled (hw : w.Finishes) {r : Run ω} (hr : Ruled machineId r) (h : Settled r) (n : Nat) :
    Settled (boundary w digest s n r) := by
  refine along w digest s hr (P := fun _ q => Settled q) h (fun _ q hq hsettled => ?_) n
  obtain ⟨hadvance, hidle⟩ := advance digest s hw hq hsettled
  exact ⟨hadvance.agreement, hidle⟩

/-- **Every run of a work loop** -/
theorem course_atMostOnce (hw : w.Finishes) {r : Run ω} (hr : Ruled machineId r) (h : Settled r) :
    Loop.AtMostOnce (course w digest s r) := by
  refine Loop.atMostOnce h.agreement fun n => ?_
  have hstep := (advance digest s hw (hr.boundary w digest s n) (settled digest s hw hr h n)).1
  rwa [← boundary_succ w digest s hr] at hstep

end WorkLoop

/-! ## The review loop -/

namespace ReviewLoop

theorem scan_widened (c : ReviewContext) (scanner : Scanner) :
    TodoList.Widened c.todos (scan c scanner).todos := by
  unfold scan
  cases scanner.scan c.changes with
  | none => exact .refl _
  | some reports => exact .of_same (TodoList.ids_repointAll ..) (TodoList.statusOf_repointAll _ _)

theorem explore_widened (scanners : List Scanner) (changes : ChangeSet) (c : ReviewContext) :
    TodoList.Widened c.todos (explore scanners changes c).todos := by
  have hscans : ∀ a : ReviewContext, TodoList.Widened c.todos a.todos →
      TodoList.Widened c.todos (scanners.foldl scan a).todos := by
    induction scanners with
    | nil => exact fun a h => h
    | cons scanner scanners ih => exact fun a h => ih _ (h.trans (scan_widened a scanner))
  have hfiles : ∀ t ∈ todosFor c.nextId changes, t.status = .pending := fun t ht => (todosFor_new ht).pending
  unfold explore
  cases hempty : c.todos.isEmpty with
  | true =>
    simp only [hempty, if_true]
    exact hscans _ (TodoList.extend_widened c.todos hfiles)
  | false =>
    simp only [hempty, Bool.false_eq_true, if_false]
    exact hscans _ (.refl _)

variable {ω : Type} {w : World ω} {s : Settings} {b : Brief} {machineId : String}

theorem Still.widened {r : Run ω} {c : ReviewContext} (h : Still b r c) :
    TodoList.Widened r.machine.context.data.todos c.todos := by
  cases h with
  | kept _ htodos =>
    rw [htodos]
    exact .refl _
  | explored changes _ _ htodos =>
    rw [htodos]
    exact explore_widened ..
  | planned _ htodos =>
    rw [htodos]
    exact Loop.planFollowUps_widened ..

def answered (r : Run ω) : List (Ident × Except DelegationError Dispatch) :=
  match r.machine.state with
  | .delegating =>
    let c := r.machine.context.data
    Loop.answers r.delegator c.todos c.nextId (instructions c) c.todos.ready
  | _ => []

/-- the tasks that a step takes in -/
def harvest (w : World ω) (r : Run ω) : List Task :=
  match r.machine.state with
  | .reviewing => (performed w r).2.2
  | _ => []

theorem answered_idle {r : Run ω} (h : r.machine.state ≠ .delegating) : answered r = [] := by
  cases hs : r.machine.state with
  | delegating => exact absurd hs h
  | _ => simp [answered, hs]

theorem harvest_idle {r : Run ω} (h : r.machine.state ≠ .reviewing) : harvest w r = [] := by
  cases hs : r.machine.state with
  | reviewing => exact absurd hs h
  | _ => simp [harvest, hs]

def course (w : World ω) (s : Settings) (b : Brief) (r : Run ω) : Loop.Course where
  todos := fun n => (boundary w s b n r).machine.context.data.todos
  delegator := fun n => (boundary w s b n r).delegator
  answers := fun n => answered (boundary w s b n r)
  joined := fun n => harvest w (boundary w s b n r)

/-- what holds of a review between two steps: todos and delegator agree, and nothing is in flight but before the tasks
of a round are taken in -/
structure Settled (r : Run ω) : Prop where
  agreement : Loop.Agreement r.machine.context.data.todos r.delegator []
  idle : r.machine.state ≠ .reviewing → r.delegator.inFlight = []

variable (b)

/-- **One step of a review** -/
theorem advance (hw : w.Finishes) {r : Run ω} (hr : Ruled machineId s r) (h : Settled r) :
    Loop.Advance r.machine.context.data.todos r.delegator (answered r) (harvest w r)
        (next w s b r).machine.context.data.todos (next w s b r).delegator ∧
      ((next w s b r).machine.state ≠ .reviewing → (next w s b r).delegator.inFlight = []) := by
  by_cases hdelegating : r.machine.state = .delegating
  · have hnext := next_delegating w s b hr hdelegating
    have hanswered : answered r = Loop.answers r.delegator r.machine.context.data.todos
        r.machine.context.data.nextId (instructions r.machine.context.data) r.machine.context.data.todos.ready := by
      simp [answered, hdelegating]
    obtain ⟨hready, hnodup⟩ := TodoList.ready_pending h.agreement.distinct
    rw [hnext.data, hnext.delegator, hanswered, harvest_idle (by simp [hdelegating])]
    exact ⟨.given h.agreement r.machine.context.data.nextId (instructions r.machine.context.data) hready hnodup,
      fun hne => absurd hnext.state hne⟩
  by_cases hreviewing : r.machine.state = .reviewing
  · have hnext := next_reviewing w s b hr hreviewing
    have hharvest : harvest w r = (performed w r).2.2 := by simp [harvest, hreviewing]
    obtain ⟨htaken, hempty⟩ := Loop.Advance.taken hw collect_settles h.agreement r.world
    rw [hnext.data, hnext.delegator, answered_idle hdelegating, hharvest]
    exact ⟨htaken, fun _ => hempty⟩
  obtain ⟨hd, hstill⟩ := next_still w s b hr hdelegating hreviewing
  rw [answered_idle hdelegating, harvest_idle hreviewing, hd]
  exact ⟨.idle h.agreement hstill.widened, fun _ => h.idle hreviewing⟩

theorem settled (hw : w.Finishes) {r : Run ω} (hr : Ruled machineId s r) (h : Settled r) (n : Nat) :
    Settled (boundary w s b n r) := by
  refine along w s b hr (P := fun _ q => Settled q) h (fun _ q hq hsettled => ?_) n
  obtain ⟨hadvance, hidle⟩ := advance b hw hq hsettled
  exact ⟨hadvance.agreement, hidle⟩

/-- **Every run of a review** -/
theorem course_atMostOnce (hw : w.Finishes) {r : Run ω} (hr : Ruled machineId s r) (h : Settled r) :
    Loop.AtMostOnce (course w s b r) := by
  refine Loop.atMostOnce h.agreement fun n => ?_
  have hstep := (advance b hw (hr.boundary w s b n) (settled b hw hr h n)).1
  rwa [← boundary_succ w s b hr] at hstep

end ReviewLoop

/-! ## Both loops -/

/-- todos that are all pending agree with a delegator that has done nothing yet -/
theorem Loop.agreement_start {todos : List Todo} (h : ∀ t ∈ todos, t.status = .pending) (registry : Registry)
    (cap : Nat) : Loop.Agreement (.ofList todos) (.empty registry cap) [] :=
  (Loop.agreement_empty registry cap).widened (TodoList.extend_widened .empty h)

/-- **Each todo is done at most once.** Take a run of either loop that begins with pending todos, in a world that
brings every task to an end. On each boundary todos and delegator agree, and what is done with is dispatched no more
(`AtMostOnce`). A todo is in progress on a boundary in a review only, between delegating and reviewing. -/
theorem todos_at_most_once {ω : Type} (w : World ω) (hw : w.Finishes) (s : Settings) (registry : Registry) (id : String)
    (observers : Nat) (hasStore : Bool) (todos : List Todo) (htodos : ∀ t ∈ todos, t.status = .pending) (nextId : Nat)
    (world : ω) :
    (∀ digest goal changes r,
      WorkLoop.begin s registry id observers hasStore (.start goal changes todos nextId) world = .ok r →
        Loop.AtMostOnce (WorkLoop.course w digest s r) ∧
          ∀ n, ∀ t ∈ (WorkLoop.boundary w digest s n r).machine.context.data.todos.items, t.status ≠ .inProgress) ∧
      ∀ brief description r,
        ReviewLoop.begin s registry id observers hasStore (.start description todos nextId) world = .ok r →
          Loop.AtMostOnce (ReviewLoop.course w s brief r) ∧
            ∀ n, ∀ t ∈ (ReviewLoop.boundary w s brief n r).machine.context.data.todos.items,
              t.status = .inProgress → (ReviewLoop.boundary w s brief n r).machine.state = .reviewing := by
  have hstart := Loop.agreement_start htodos registry s.concurrencyCap
  constructor
  · intro digest goal changes r h
    obtain ⟨-, rfl⟩ := WorkLoop.begin_started h
    have hruled := WorkLoop.started_ruled s registry id observers hasStore (.start goal changes todos nextId) world
    have hsettled : WorkLoop.Settled (WorkLoop.started s registry id observers hasStore
        (.start goal changes todos nextId) world) := ⟨hstart, rfl⟩
    have honce := WorkLoop.course_atMostOnce digest s hw hruled hsettled
    refine ⟨honce, fun n t ht hprogress => ?_⟩
    have hflight := (honce.inProgress n t.id).1 ⟨t, ht, rfl, hprogress⟩
    have hidle := (WorkLoop.settled digest s hw hruled hsettled n).idle
    simp only [WorkLoop.course, hidle, List.not_mem_nil] at hflight
  · intro brief description r h
    obtain ⟨-, rfl⟩ := ReviewLoop.begin_started h
    have hruled := ReviewLoop.started_ruled s registry id observers hasStore (.start description todos nextId) world
    have hsettled : ReviewLoop.Settled (ReviewLoop.started s registry id observers hasStore
        (.start description todos nextId) world) := ⟨hstart, fun _ => rfl⟩
    have honce := ReviewLoop.course_atMostOnce brief hw hruled hsettled
    refine ⟨honce, fun n t ht hprogress => ?_⟩
    by_contra hne
    have hflight := (honce.inProgress n t.id).1 ⟨t, ht, rfl, hprogress⟩
    have hidle := (ReviewLoop.settled brief hw hruled hsettled n).idle hne
    simp only [ReviewLoop.course, hidle, List.not_mem_nil] at hflight

/-- tasks that find their resource used up in the first round -/
def usedUp : World Nat := .inTurn fun k => if k = 0 then .error (.rateLimited "agent" 1) else .ok .blank

def lookTodo : Todo := .fresh (.given "look") "look" .high

/-- a todo whose first task is put off is dispatched once more, and completed; in a review it is in progress between the
steps -/
theorem todos_at_most_once_put_off :
    (∃ r, WorkLoop.begin {} .standard "work" 0 false (.start "look" ⟨[]⟩ [lookTodo] 0) 0 = .ok r ∧
        Loop.AtMostOnce (WorkLoop.course usedUp (fun x => x) {} r) ∧
        ((WorkLoop.course usedUp (fun x => x) {} r).answers 2).map Prod.fst = [lookTodo.id] ∧
        ((WorkLoop.course usedUp (fun x => x) {} r).answers 6).map Prod.fst = [lookTodo.id] ∧
        lookTodo.id ∈ ((WorkLoop.course usedUp (fun x => x) {} r).delegator 7).processed) ∧
      ∃ r, ReviewLoop.begin {} .standard "review" 0 false (.start "look" [lookTodo] 0) 0 = .ok r ∧
        Loop.AtMostOnce (ReviewLoop.course usedUp {} ⟨.ok ⟨[]⟩, []⟩ r) ∧
        (ReviewLoop.boundary usedUp {} ⟨.ok ⟨[]⟩, []⟩ 3 r).machine.state = .reviewing ∧
        lookTodo.id ∈ ((ReviewLoop.course usedUp {} ⟨.ok ⟨[]⟩, []⟩ r).delegator 3).inFlight ∧
        lookTodo.id ∈ ((ReviewLoop.course usedUp {} ⟨.ok ⟨[]⟩, []⟩ r).delegator 7).processed := by
  have hvalid : Settings.validate {} = .ok () := by decide +kernel
  have hpending : ∀ t ∈ [lookTodo], t.status = .pending := by decide
  constructor
  · have hbegin := WorkLoop.begin_ok hvalid .standard "work" 0 false (.start "look" ⟨[]⟩ [lookTodo] 0) 0
    obtain ⟨hwork, -⟩ := todos_at_most_once usedUp (World.inTurn_finishes _) {} .standard "work" 0 false [lookTodo]
      hpending 0 0
    exact ⟨_, hbegin, (hwork (fun x => x) "look" ⟨[]⟩ _ hbegin).1, by decide +kernel, by decide +kernel,
      by decide +kernel⟩
  · have hbegin := ReviewLoop.begin_ok hvalid .standard "review" 0 false (.start "look" [lookTodo] 0) 0
    obtain ⟨-, hreview⟩ := todos_at_most_once usedUp (World.inTurn_finishes _) {} .standard "review" 0 false [lookTodo]
      hpending 0 0
    exact ⟨_, hbegin, (hreview ⟨.ok ⟨[]⟩, []⟩ "look" _ hbegin).1, by decide +kernel, by decide +kernel,
      by decide +kernel⟩

end Foreman

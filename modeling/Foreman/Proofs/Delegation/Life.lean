/-
The life of a task, over all calls on it.

Calls come in any order, and any number of them may be refused. A call is granted exactly in the one status that it is
for, and a call that is not granted is refused before anything is written. A new task can be started, a started one can
be completed, and a completed one can be neither, so two calls are granted at most, however many there are. `Stage` says
which these are and what they have left in the task: a call leads to the next stage or stays in the same one
(`Stage.turn`), and what holds of a task at any time is read off its stage.

Results:
- `serve_cases`: all that a call can do.
- `serve_eq`:    in place, a call does what `start` and `complete` make of the task, and a refused one does nothing.
- `run_stage`:   the stage that calls bring a new task to.
- `lives_once`:  a task is started once and completed once, and holds the outcome that it was completed with.
-/
import Mathlib.Data.List.Induction
import Foreman.Delegation.Task

namespace Foreman.Task

/-! ## What a call does -/

theorem complete_inProgress {t : Task} (h : t.status = .inProgress) (outcome : Except GuardError Payload) (now : Nat) :
    t.complete outcome now = .ok { record { t with status := .completed } outcome with finishedAt := some now } := by
  cases outcome <;> simp [complete, advance, h, Except.map, record]

theorem complete_refused {t : Task} (h : t.status ≠ .inProgress) (outcome : Except GuardError Payload) (now : Nat) :
    t.complete outcome now = .error (.invalidTransition t.id t.status .completed) := by
  simp [complete, advance, h, Except.map]

/-- **All that a call can do**: it is refused, or it is granted in the one status that it is for -/
theorem serve_cases (t : Task) (c : Call) :
    (t.status ≠ c.source ∧ t.serve c = (t, some (.invalidTransition t.id t.status c.target))) ∨
      (c = .start ∧ t.status = .pending ∧ t.serve c = ({ t with status := .inProgress }, none)) ∨
        ∃ outcome now, c = .complete outcome now ∧ t.status = .inProgress ∧
          t.serve c = ({ record { t with status := .completed } outcome with finishedAt := some now }, none) := by
  cases c with
  | start =>
    by_cases h : t.status = .pending
    · exact .inr (.inl ⟨rfl, h, if_pos h⟩)
    · exact .inl ⟨h, if_neg h⟩
  | complete outcome now =>
    by_cases h : t.status = .inProgress
    · exact .inr (.inr ⟨outcome, now, rfl, h, by simp [serve, move, h]⟩)
    · exact .inl ⟨h, by simp [serve, move, h, Call.target]⟩

/-- what a call makes of a task, as a value -/
def called (t : Task) : Call → Except DelegationError Task
  | .start => t.start
  | .complete outcome now => t.complete outcome now

/-- **A call carried out in place** does what `start` and `complete` make of the task; where they fail, it does nothing. -/
theorem serve_eq (t : Task) (c : Call) :
    t.serve c = match t.called c with
      | .ok t' => (t', none)
      | .error e => (t, some e) := by
  rcases serve_cases t c with ⟨h, he⟩ | ⟨rfl, h, he⟩ | ⟨outcome, now, rfl, h, he⟩ <;> rw [he]
  · cases c with
    | start =>
      have hne : t.status ≠ .pending := h
      simp [called, start, advance, hne, Call.target]
    | complete outcome now => rw [called, complete_refused h, Call.target]
  · simp [called, start, advance, h]
  · rw [called, complete_inProgress h]

/-- a call is granted exactly in the status that it is for -/
theorem serve_eq_none_iff (t : Task) (c : Call) : (t.serve c).2 = none ↔ t.status = c.source := by
  rcases serve_cases t c with ⟨h, he⟩ | ⟨rfl, h, he⟩ | ⟨outcome, now, rfl, h, he⟩ <;> rw [he]
  · simpa using h
  · exact iff_of_true rfl h
  · exact iff_of_true rfl h

/-- a refused call leaves the task as it is, and says where it stands and what was asked for -/
theorem serve_refused {t : Task} {c : Call} {e : DelegationError} (h : (t.serve c).2 = some e) :
    (t.serve c).1 = t ∧ e = .invalidTransition t.id t.status c.target := by
  rcases serve_cases t c with ⟨-, he⟩ | ⟨-, -, he⟩ | ⟨outcome, now, -, -, he⟩ <;> rw [he] at h ⊢
  · exact ⟨rfl, (Option.some.inj h).symm⟩
  · cases h
  · cases h

/-! ## Calls one after the other -/

/-- a call, and the task that it meets -/
structure Turn where
  task : Task
  call : Call

def Turn.granted? (u : Turn) : Option Call :=
  match (u.task.serve u.call).2 with
  | none => some u.call
  | some _ => none

def turns (t : Task) : List Call → List Turn
  | [] => []
  | c :: cs => ⟨t, c⟩ :: turns (t.serve c).1 cs

def granted (t : Task) (cs : List Call) : List Call := (turns t cs).filterMap Turn.granted?

theorem serveAll_snoc (t : Task) (cs : List Call) (c : Call) :
    t.serveAll (cs ++ [c]) = ((t.serveAll cs).serve c).1 := by
  simp [serveAll, List.foldl_append]

theorem turns_snoc (t : Task) (cs : List Call) (c : Call) :
    turns t (cs ++ [c]) = turns t cs ++ [⟨t.serveAll cs, c⟩] := by
  induction cs generalizing t with
  | nil => rfl
  | cons b cs ih =>
    rw [List.cons_append, turns, ih]
    rfl

theorem granted_snoc (t : Task) (cs : List Call) (c : Call) :
    granted t (cs ++ [c]) = granted t cs ++ (Turn.granted? ⟨t.serveAll cs, c⟩).toList := by
  rw [granted, turns_snoc, List.filterMap_append, ← granted]
  cases h : Turn.granted? ⟨t.serveAll cs, c⟩ <;> simp [h]

/-! ## Stages -/

/-- how far a new task has come: the calls that were granted, and the task after them -/
inductive Stage (t : Task) : List Call → Task → Prop
  | new : Stage t [] t
  | begun : Stage t [.start] { t with status := .inProgress }
  | ended (outcome : Except GuardError Payload) (now : Nat) : Stage t [.start, .complete outcome now]
      { record { t with status := .completed } outcome with finishedAt := some now }

/-- **A call leads to the next stage, or leaves the stage as it is.** -/
theorem Stage.turn {t s : Task} {done : List Call} (ht : t.status = .pending) (h : Stage t done s) (c : Call) :
    Stage t (done ++ (Turn.granted? ⟨s, c⟩).toList) (s.serve c).1 := by
  rcases serve_cases s c with ⟨-, he⟩ | ⟨rfl, hs, he⟩ | ⟨outcome, now, rfl, hs, he⟩ <;>
    simp only [Turn.granted?, he, Option.toList_none, Option.toList_some, List.append_nil]
  · exact h
  · -- a task that was started is not pending any more
    cases h with
    | new => exact .begun
    | begun => cases hs
    | ended outcome now => cases outcome <;> cases hs
  · -- only a started task is in progress
    cases h with
    | new => cases ht.symm.trans hs
    | begun => exact .ended outcome now
    | ended before now => cases before <;> cases hs

/-- **The stage that calls bring a new task to.** -/
theorem run_stage {t : Task} (ht : t.status = .pending) (cs : List Call) :
    Stage t (granted t cs) (t.serveAll cs) := by
  induction cs using List.reverseRecOn with
  | nil => exact .new
  | append_singleton cs c ih =>
    rw [granted_snoc, serveAll_snoc]
    exact ih.turn ht c

/-! ## What a task holds -/

/-- a task that nothing was done to -/
structure New (t : Task) : Prop where
  status : t.status = .pending
  result : t.result = none
  error : t.error = none
  finishedAt : t.finishedAt = none

theorem fresh_new (id todoId : Ident) (subagent resource instructions : String) :
    (fresh id todoId subagent resource instructions).New :=
  ⟨rfl, rfl, rfl, rfl⟩

namespace Stage

variable {t s : Task} {done : List Call}

theorem pending_iff (ht : t.New) (h : Stage t done s) : s.status = .pending ↔ done = [] := by
  cases h with
  | new => simp [ht.status]
  | begun => simp
  | ended outcome now => cases outcome <;> simp [record]

theorem completed_iff (ht : t.New) (h : Stage t done s) :
    s.status = .completed ↔ ∃ outcome now, .complete outcome now ∈ done := by
  cases h with
  | new => simp [ht.status]
  | begun => simp
  | ended outcome now => cases outcome <;> simp [record]

theorem result_iff (ht : t.New) (h : Stage t done s) (p : Payload) :
    s.result = some p ↔ ∃ now, .complete (.ok p) now ∈ done := by
  cases h with
  | new => simp [ht.result]
  | begun => simp [ht.result]
  | ended outcome now => cases outcome <;> simp [record, ht.result, eq_comm]

theorem error_iff (ht : t.New) (h : Stage t done s) (e : GuardError) :
    s.error = some e ↔ ∃ now, .complete (.error e) now ∈ done := by
  cases h with
  | new => simp [ht.error]
  | begun => simp [ht.error]
  | ended outcome now => cases outcome <;> simp [record, ht.error, eq_comm]

theorem finishedAt_iff (ht : t.New) (h : Stage t done s) (now : Nat) :
    s.finishedAt = some now ↔ ∃ outcome, .complete outcome now ∈ done := by
  cases h with
  | new => simp [ht.finishedAt]
  | begun => simp [ht.finishedAt]
  | ended outcome now => simp [eq_comm]

theorem outcome (ht : t.New) (h : Stage t done s) :
    (s.status = .completed → s.result.isSome = !s.error.isSome) ∧
      (s.status ≠ .completed → s.result = none ∧ s.error = none) := by
  cases h with
  | new => simp [ht.status, ht.result, ht.error]
  | begun => simp [ht.result, ht.error]
  | ended outcome now => cases outcome <;> simp [record, ht.result, ht.error]

/-- one start is granted at most, and one completion at most, which comes after the start -/
theorem once (h : Stage t done s) :
    done = [] ∨ done = [.start] ∨ ∃ outcome now, done = [.start, .complete outcome now] := by
  cases h with
  | new => exact .inl rfl
  | begun => exact .inr (.inl rfl)
  | ended outcome now => exact .inr (.inr ⟨outcome, now, rfl⟩)

theorem work (h : Stage t done s) :
    s.id = t.id ∧ s.todoId = t.todoId ∧ s.subagent = t.subagent ∧ s.resource = t.resource ∧
      s.instructions = t.instructions := by
  cases h with
  | new => exact ⟨rfl, rfl, rfl, rfl, rfl⟩
  | begun => exact ⟨rfl, rfl, rfl, rfl, rfl⟩
  | ended outcome now => cases outcome <;> exact ⟨rfl, rfl, rfl, rfl, rfl⟩

end Stage

/-- what calls on a new task come to; `last` is the task after all of them -/
structure Lived (t : Task) (cs : List Call) (last : Task) : Prop where
  /-- one start is granted at most, and one completion at most, which comes after the start -/
  once : granted t cs = [] ∨ granted t cs = [.start] ∨ ∃ outcome now, granted t cs = [.start, .complete outcome now]
  /-- a further call does in place what `start` and `complete` make of the task; where they fail, it leaves the task -/
  called : ∀ c, last.serve c = match last.called c with
    | .ok t' => (t', none)
    | .error e => (last, some e)
  /-- it is granted exactly in the status that it is for -/
  admitted : ∀ c, (last.serve c).2 = none ↔ last.status = c.source
  /-- if it is refused, it changes nothing, and says where the task stands and what was asked for -/
  refused : ∀ c e, (last.serve c).2 = some e →
    (last.serve c).1 = last ∧ e = .invalidTransition t.id last.status c.target
  pending : last.status = .pending ↔ granted t cs = []
  completed : last.status = .completed ↔ ∃ outcome now, .complete outcome now ∈ granted t cs
  /-- a completed task has a payload or an error, and not both -/
  settled : last.status = .completed → last.result.isSome = !last.error.isSome
  unsettled : last.status ≠ .completed → last.result = none ∧ last.error = none
  finished : last.finishedAt.isSome = true ↔ last.status = .completed
  /-- it holds what it was completed with -/
  result : ∀ p, last.result = some p ↔ ∃ now, .complete (.ok p) now ∈ granted t cs
  error : ∀ e, last.error = some e ↔ ∃ now, .complete (.error e) now ∈ granted t cs
  finishedAt : ∀ now, last.finishedAt = some now ↔ ∃ outcome, .complete outcome now ∈ granted t cs
  work : last.id = t.id ∧ last.todoId = t.todoId ∧ last.subagent = t.subagent ∧ last.resource = t.resource ∧
    last.instructions = t.instructions

/-- **A task lives once**: whatever calls come, it is started once at most and then completed once at most, and it holds
the outcome that it was completed with. -/
theorem lives_once (id todoId : Ident) (subagent resource instructions : String) (cs : List Call) :
    Lived (fresh id todoId subagent resource instructions) cs
      ((fresh id todoId subagent resource instructions).serveAll cs) := by
  have hnew := fresh_new id todoId subagent resource instructions
  generalize fresh id todoId subagent resource instructions = t at hnew ⊢
  have hstage := run_stage hnew.status cs
  obtain ⟨hsettled, hunsettled⟩ := hstage.outcome hnew
  refine ⟨hstage.once, serve_eq _, serve_eq_none_iff _, ?_, hstage.pending_iff hnew, hstage.completed_iff hnew,
    hsettled, hunsettled, ?_, hstage.result_iff hnew, hstage.error_iff hnew, hstage.finishedAt_iff hnew, hstage.work⟩
  · intro c e he
    rw [← hstage.work.1]
    exact serve_refused he
  · rw [hstage.completed_iff hnew, Option.isSome_iff_exists, exists_comm]
    exact exists_congr (hstage.finishedAt_iff hnew)

/-- completed too early, started twice, failed, and completed again: what counts is the failure -/
example (p : Payload) (e : GuardError) (id : Ident) :
    let t := fresh id (.given "todo") "testing" "agent:testing" "look"
    let cs : List Call := [.complete (.ok p) 1, .start, .start, .complete (.error e) 2, .complete (.ok p) 3, .start]
    t.serveAll cs = { t with status := .completed, error := some e, finishedAt := some 2 } ∧
      granted t cs = [.start, .complete (.error e) 2] :=
  ⟨rfl, rfl⟩

end Foreman.Task

/-
Every task of a delegator is accounted for.

A task has a number from its dispatch, and goes from one place to another: it runs, it has finished, it is joined; or it
breaks down; or it comes in after the end, and then it is counted as late, or lost if the tasks were let go of. `Recorded`
writes down, beside the delegator, which task is where, reading it off what each step does: what is put at the end of the
running or finished tasks, what a join hands out, by how much the count of late results goes up. That no task is doubled,
and none is lost but in that one way, is then one equation between lists (`Accounted.places`). The todos in flight are
those of the tasks that were not joined (`Accounted.inFlight`), which is what keeps a second task of a todo away.

Results:
- `Recorded.record_accounted`: the account holds after any steps.
- `Recorded.marked_given`:     nothing is dispatched for a todo after it was marked.
- `delegator_safe`:            what users of a delegator can rely on, whatever the order of steps.
- `detached_uncounted`:        a task that comes to its end and is neither joined nor counted.
-/
import Foreman.Proofs.Delegation.Steps

namespace Foreman.Delegator

variable (registry : Registry) (cap : Nat)

/-! ## The record -/

/-- a delegator with the record of its tasks, each under its number -/
structure Recorded where
  delegator : Delegator
  /-- all tasks that were dispatched, as they were then -/
  given : List (Nat × Task)
  /-- the tasks that have finished and were not joined -/
  ended : List (Nat × Task)
  joined : List (Nat × Task)
  /-- the tasks whose results were counted as late -/
  late : List Nat
  /-- the tasks that came to their end, or had come to it, and that nobody counted -/
  lost : List Nat
  /-- the tasks that broke down -/
  broken : List (Nat × Task)

namespace Recorded

def start (registry : Registry) (cap : Nat) : Recorded := ⟨.empty registry cap, [], [], [], [], [], []⟩

/-- a task that ran before a step and does not run after it -/
def gone (d d' : Delegator) (n : Nat) : List Nat :=
  match d.running.lookup n, d'.running.lookup n with
  | some _, none => [n]
  | _, _ => []

/-- one step, and what is read off it -/
def step (x : Recorded) (o : Op) : Recorded :=
  let d := x.delegator
  let d' := d.step o
  let x' := { x with delegator := d' }
  match o with
  | .delegate .. => { x' with given := x.given ++ d'.running.drop d.running.length }
  | .finish n .. =>
    let done := d'.finished.drop d.finished.length
    let counted := List.replicate (d'.late - d.late) n
    { x' with
      ended := x.ended ++ done.map fun t => (n, t)
      late := x.late ++ counted
      lost := x.lost ++ (gone d d' n).drop (done.length + counted.length) }
  | .crash n => { x' with broken := x.broken ++ (d.running.lookup n).toList.map fun t => (n, t) }
  | .join => { x' with ended := x.ended.tail, joined := x.joined ++ (x.ended.map Prod.fst).zip d.join.2.toList }
  | .abandon _ =>
    let numbers := x.ended.map Prod.fst
    { x' with
      ended := []
      late := x.late ++ numbers.take (d'.late - d.late)
      lost := x.lost ++ numbers.drop (d'.late - d.late) }
  | .sit _ | .mark _ => x'

def run (ops : List Op) : Recorded := ops.foldl step (start registry cap)

@[simp]
theorem run_snoc (ops : List Op) (o : Op) : run registry cap (ops ++ [o]) = (run registry cap ops).step o := by
  simp [run, List.foldl_append]

/-- the record leaves the delegator alone -/
theorem step_delegator (x : Recorded) (o : Op) : (x.step o).delegator = x.delegator.step o := by
  cases o <;> rfl

theorem run_delegator (ops : List Op) : (run registry cap ops).delegator = Delegator.run registry cap ops := by
  induction ops using List.reverseRecOn with
  | nil => rfl
  | append_singleton ops o ih => rw [run_snoc, step_delegator, ih, Delegator.run_snoc]

/-- the tasks that were dispatched, and neither joined nor counted as late -/
def unjoined (x : Recorded) : List (Nat × Task) := x.ended ++ x.delegator.running ++ x.broken

/-- a task is one that was dispatched, with the outcome that one of the steps gave it -/
def Ends (x : Recorded) (ops : List Op) (p : Nat × Task) : Prop :=
  ∃ task outcome now, (p.1, task) ∈ x.given ∧ Op.finish p.1 outcome now ∈ ops ∧ task.complete outcome now = .ok p.2

/-! ### What a step writes down -/

theorem delegate_step (x : Recorded) (taskId : Ident) (t : Todo) (instructions : String) :
    x.step (.delegate taskId t instructions) = x ∨
      ∃ task, x.delegator.closed = false ∧ t.id ∉ x.delegator.processed ∧ t.id ∉ x.delegator.inFlight ∧
        task.todoId = t.id ∧ task.Started ∧ x.step (.delegate taskId t instructions) = { x with
          delegator := { x.delegator with
            running := x.delegator.running ++ [(x.delegator.next, task)]
            inFlight := x.delegator.inFlight ++ [t.id]
            next := x.delegator.next + 1
            dispatched := x.delegator.dispatched + 1 }
          given := x.given ++ [(x.delegator.next, task)] } := by
  rcases x.delegator.delegate_step taskId t instructions with he | ⟨task, ho, hp, hf, hid, hs, he⟩
  · left; simp [step, he]
  · exact Or.inr ⟨task, ho, hp, hf, hid, hs, by simp [step, he]⟩

theorem gone_self (d : Delegator) (n : Nat) : gone d d n = [] := by
  unfold gone
  cases d.running.lookup n <;> rfl

theorem gone_taken {d d' : Delegator} {n : Nat} {task : Task} (hl : d.running.lookup n = some task)
    (h : d'.running = d.running.filter fun p => p.1 ≠ n) : gone d d' n = [n] := by
  have hnone : d'.running.lookup n = none := by
    rw [h, List.lookup_eq_none_iff]
    intro p hp
    have hne : p.1 ≠ n := by simpa using (List.mem_filter.1 hp).2
    simpa using hne.symm
  rw [gone, hl, hnone]

theorem finish_step (x : Recorded) (hs : ∀ p ∈ x.delegator.running, p.2.Started) (n : Nat)
    (outcome : Except GuardError Payload) (now : Nat) :
    x.step (.finish n outcome now) = x ∨
      ∃ task done, x.delegator.running.lookup n = some task ∧ task.complete outcome now = .ok done ∧
        done.todoId = task.todoId ∧ x.step (.finish n outcome now) =
          if x.delegator.closed then { x with
            delegator := { x.delegator with
              seats := (x.delegator.seats.discard n).1
              running := x.delegator.running.filter fun p => p.1 ≠ n
              late := x.delegator.late + (!x.delegator.detached).toNat }
            late := x.late ++ (if x.delegator.detached then [] else [n])
            lost := x.lost ++ (if x.delegator.detached then [n] else []) }
          else { x with
            delegator := { x.delegator with
              seats := (x.delegator.seats.discard n).1
              running := x.delegator.running.filter fun p => p.1 ≠ n
              finished := x.delegator.finished ++ [done] }
            ended := x.ended ++ [(n, done)] } := by
  rcases x.delegator.finish_step n outcome now with he | ⟨task, hl, he⟩
  · left
    simp [step, he, gone_self]
  · obtain ⟨done, hdone, hid⟩ := (hs _ (mem_of_lookup hl)).completes outcome now
    refine Or.inr ⟨task, done, hl, hdone, hid, ?_⟩
    have hgone : ∀ d', d'.running = _ → gone x.delegator d' n = [n] := fun _ h => gone_taken hl h
    cases hc : x.delegator.closed with
    | false => simp [step, he, hc, hgone, hdone, Except.toOption]
    | true => cases hd : x.delegator.detached <;> simp [step, he, hc, hd, hgone]

theorem crash_step (x : Recorded) (n : Nat) :
    x.step (.crash n) = x ∨
      ∃ task, x.delegator.running.lookup n = some task ∧ x.step (.crash n) = { x with
        delegator := { x.delegator with
          seats := (x.delegator.seats.discard n).1
          running := x.delegator.running.filter fun p => p.1 ≠ n }
        broken := x.broken ++ [(n, task)] } := by
  rcases x.delegator.crash_step n with ⟨hl, he⟩ | ⟨task, hl, he⟩
  · left; simp [step, he, hl]
  · exact Or.inr ⟨task, hl, by simp [step, he, hl]⟩

theorem join_step {x : Recorded} (hf : x.ended.map Prod.snd = x.delegator.finished) :
    x.step .join = x ∨
      ∃ p r, x.ended = p :: r ∧ x.step .join = { x with
        delegator := { x.delegator with
          finished := r.map Prod.snd
          inFlight := x.delegator.inFlight.erase p.2.todoId }
        ended := r
        joined := x.joined ++ [p] } := by
  cases hx : x.ended with
  | nil =>
    have hnone : x.delegator.finished = [] := by rw [← hf, hx, List.map_nil]
    have hjoin : x.delegator.join = (x.delegator, none) := by simp only [join, hnone]
    left
    simp only [step, Delegator.step, hjoin, hx, List.map_nil, List.zip_nil_left, List.append_nil, List.tail_nil]
    rw [← hx]
  | cons p r =>
    have hsome : x.delegator.finished = p.2 :: r.map Prod.snd := by rw [← hf, hx, List.map_cons]
    exact Or.inr ⟨p, r, rfl, by simp [step, Delegator.step, join, hsome, hx]⟩

theorem mark_step (x : Recorded) (id : Ident) :
    ∃ processed, x.step (.mark id) = { x with delegator := { x.delegator with processed := processed } } := by
  obtain ⟨processed, he, -⟩ := x.delegator.mark_step id
  exact ⟨processed, by simp [step, he]⟩

theorem sit_step (x : Recorded) (n : Nat) :
    ∃ seats, x.step (.sit n) = { x with delegator := { x.delegator with seats := seats } } := by
  rcases x.delegator.sit_step n with he | he
  · exact ⟨x.delegator.seats, by simp [step, he]⟩
  · exact ⟨_, by simp only [step, he]; rfl⟩

theorem abandon_step (x : Recorded) (runtime : Bool) (hf : x.ended.map Prod.snd = x.delegator.finished)
    (hshut : x.delegator.closed = true → x.ended = []) :
    x.step (.abandon runtime) = { x with
      delegator := x.delegator.step (.abandon runtime)
      ended := []
      late := x.late ++ (if runtime then x.ended.map Prod.fst else [])
      lost := x.lost ++ (if runtime then [] else x.ended.map Prod.fst) } := by
  have hlength : x.delegator.finished.length = x.ended.length := by rw [← hf, List.length_map]
  cases hc : x.delegator.closed with
  | true => simp [step, hshut hc]
  | false => cases runtime <;> simp [step, Delegator.abandon_step, hc, hlength]

/-! ### The account -/

/-- where the tasks are after the steps `ops` -/
structure Accounted (ops : List Op) (x : Recorded) : Prop where
  /-- tasks are numbered in order of dispatch -/
  numbers : x.given.map Prod.fst = List.range x.delegator.next
  started : ∀ p ∈ x.given, p.2.Started
  unfinished : ∀ p ∈ x.delegator.running ++ x.broken, p ∈ x.given
  finished : x.ended.map Prod.snd = x.delegator.finished
  completed : ∀ p ∈ x.ended ++ x.joined, x.Ends ops p
  /-- each task that was dispatched is in one place -/
  places : (x.joined.map Prod.fst ++ (x.late ++ x.lost) ++ x.unjoined.map Prod.fst).Perm
    (List.range x.delegator.next)
  counter : x.delegator.dispatched = .ofNat x.delegator.next
  late : x.late.length = x.delegator.late
  /-- no two of the tasks that were not joined are about one todo -/
  single : (x.unjoined.map fun p => p.2.todoId).Nodup
  inFlight : x.delegator.closed = false → x.delegator.inFlight.Perm (x.unjoined.map fun p => p.2.todoId)
  early : x.delegator.closed = false → x.late = [] ∧ x.lost = [] ∧ x.delegator.detached = false
  shut : x.delegator.closed = true → x.ended = []
  /-- either all results that come in after the end are counted, or none of them -/
  handed : x.delegator.closed = true → if x.delegator.detached then x.late = [] else x.lost = []

theorem start_accounted : Accounted [] (start registry cap) := by
  constructor <;> simp [start, empty, unjoined]

theorem Ends.mono {x y : Recorded} {ops : List Op} {p : Nat × Task} (h : x.Ends ops p) (hg : x.given ⊆ y.given)
    (o : Op) : y.Ends (ops ++ [o]) p := by
  obtain ⟨task, outcome, now, hmem, hop, hdone⟩ := h
  exact ⟨task, outcome, now, hg hmem, List.mem_append_left _ hop, hdone⟩

namespace Accounted

variable {ops : List Op} {x : Recorded}

theorem running_nodup (h : x.Accounted ops) : (x.delegator.running.map Prod.fst).Nodup := by
  have hall : (x.unjoined.map Prod.fst).Nodup :=
    (List.nodup_append.1 (h.places.nodup_iff.2 List.nodup_range)).2.1
  refine hall.sublist (List.Sublist.map _ ?_)
  exact (List.sublist_append_right _ _).trans (List.sublist_append_left _ _)

theorem running_started (h : x.Accounted ops) : ∀ p ∈ x.delegator.running, p.2.Started :=
  fun p hp => h.started p (h.unfinished p (List.mem_append_left _ hp))

/-- a step that leaves the tasks where they are keeps the account -/
theorem same (h : x.Accounted ops) {o : Op} {y : Recorded} (hy : y = x) : y.Accounted (ops ++ [o]) := by
  subst hy
  exact { h with completed := fun p hp => (h.completed p hp).mono (List.Subset.refl _) o }

theorem unjoined_taken (h : x.Accounted ops) {n : Nat} {task : Task} (hl : x.delegator.running.lookup n = some task) :
    x.unjoined.Perm ((n, task) :: (x.ended ++ (x.delegator.running.filter fun p => p.1 ≠ n) ++ x.broken)) := by
  have hrun := ((running_perm h.running_nodup hl).append_left x.ended).append_right x.broken
  refine hrun.trans ?_
  rw [List.append_assoc, List.append_assoc, List.cons_append]
  exact List.perm_middle

/-- a running task that is put with the finished ones keeps its number and its todo -/
theorem unjoined_done (h : x.Accounted ops) {n : Nat} {task : Task} {β : Type}
    (hl : x.delegator.running.lookup n = some task) (done : Task) (f : Nat × Task → β)
    (hf : f (n, done) = f (n, task)) :
    ((x.ended ++ [(n, done)] ++ (x.delegator.running.filter fun p => p.1 ≠ n) ++ x.broken).map f).Perm
      (x.unjoined.map f) := by
  have hmoved : (x.ended ++ [(n, done)] ++ (x.delegator.running.filter fun p => p.1 ≠ n) ++ x.broken).Perm
      ((n, done) :: (x.ended ++ (x.delegator.running.filter fun p => p.1 ≠ n) ++ x.broken)) := by
    simp only [List.append_assoc, List.singleton_append]
    exact List.perm_middle
  have htaken := (h.unjoined_taken hl).map f
  rw [List.map_cons, ← hf, ← List.map_cons] at htaken
  exact (hmoved.map f).trans htaken.symm

/-! Where a step puts tasks, the numbers and the todos of those that were not joined are compared as lists, up to their
order: `places`, `single` and `inFlight` are all read off such a comparison. -/

theorem delegate (h : x.Accounted ops) (taskId : Ident) (t : Todo) (instructions : String) :
    (x.step (.delegate taskId t instructions)).Accounted (ops ++ [.delegate taskId t instructions]) := by
  rcases x.delegate_step taskId t instructions with he | ⟨task, ho, -, hf, hid, hs, he⟩
  · exact h.same he
  rw [he]
  have hperm : (x.ended ++ (x.delegator.running ++ [(x.delegator.next, task)]) ++ x.broken).Perm
      (x.unjoined ++ [(x.delegator.next, task)]) := by
    simp only [unjoined, List.append_assoc]
    exact (List.perm_append_comm.append_left _).append_left _
  have hnumbers := (hperm.map Prod.fst).trans (List.Perm.of_eq List.map_append)
  have htodos := (hperm.map fun p => p.2.todoId).trans (List.Perm.of_eq List.map_append)
  rw [List.map_singleton, hid] at htodos
  refine ⟨?_, ?_, ?_, h.finished, ?_, ?_, ?_, h.late, ?_, ?_, h.early, h.shut, h.handed⟩
  · simp [h.numbers, List.range_succ]
  · intro p hp
    rcases List.mem_append.1 hp with hp | hp
    · exact h.started p hp
    · rw [List.mem_singleton.1 hp]
      exact hs
  · intro p hp
    have := h.unfinished p
    simp only [List.mem_append, List.mem_singleton] at hp this ⊢
    tauto
  · exact fun p hp => (h.completed p hp).mono (List.subset_append_left _ _) _
  · refine (hnumbers.append_left _).trans ?_
    rw [← List.append_assoc, List.range_succ]
    exact h.places.append_right _
  · exact counter_succ h.counter
  · refine htodos.nodup_iff.2 (List.nodup_append.2 ⟨h.single, by simp, ?_⟩)
    intro i hi j hj hij
    rw [List.mem_singleton.1 hj] at hij
    exact hf ((h.inFlight ho).mem_iff.2 (hij ▸ hi))
  · intro _
    exact ((h.inFlight ho).append_right _).trans htodos.symm

theorem finish (h : x.Accounted ops) (n : Nat) (outcome : Except GuardError Payload) (now : Nat) :
    (x.step (.finish n outcome now)).Accounted (ops ++ [.finish n outcome now]) := by
  rcases x.finish_step h.running_started n outcome now with he | ⟨task, done, hl, hdone, hid, he⟩
  · exact h.same he
  rw [he]
  have htaken := h.unjoined_taken hl
  have hnumbers := htaken.map Prod.fst
  have htodos := htaken.map fun p => p.2.todoId
  have hgiven : (n, task) ∈ x.given := h.unfinished _ (List.mem_append_left _ (mem_of_lookup hl))
  have hunfinished : ∀ p ∈ (x.delegator.running.filter fun p => p.1 ≠ n) ++ x.broken, p ∈ x.given := fun p hp =>
    h.unfinished p ((List.filter_sublist.append_right _).subset hp)
  have hkept : ∀ p, x.Ends ops p → x.Ends (ops ++ [.finish n outcome now]) p := fun p hp =>
    hp.mono (List.Subset.refl _) _
  cases hc : x.delegator.closed with
  | true =>
    -- the task goes from the running ones to the late ones, or to the lost ones
    have hopen : ¬x.delegator.closed = false := by simp [hc]
    have hsingle := (List.nodup_cons.1 (htodos.nodup_iff.1 h.single)).2
    have hcounted : (x.late ++ (if x.delegator.detached then [] else [n]) ++
        (x.lost ++ if x.delegator.detached then [n] else [])).Perm (x.late ++ x.lost ++ [n]) := by
      cases x.delegator.detached with
      | true => simp
      | false => simpa using (List.perm_append_singleton n x.lost).symm.append_left x.late
    have hplaces := (hcounted.append_left (x.joined.map Prod.fst)).append_right
      ((x.ended ++ (x.delegator.running.filter fun p => p.1 ≠ n) ++ x.broken).map Prod.fst)
    rw [if_pos rfl]
    refine ⟨h.numbers, h.started, hunfinished, h.finished, fun p hp => hkept p (h.completed p hp), hplaces.trans ?_,
      h.counter, ?_, hsingle, fun ho => absurd ho hopen, fun ho => absurd ho hopen, fun _ => h.shut hc, fun _ => ?_⟩
    · rw [← List.append_assoc, List.append_assoc _ [n]]
      exact (hnumbers.symm.append_left _).trans h.places
    · cases x.delegator.detached <;> simp [h.late]
    · have hhanded := h.handed hc
      cases hd : x.delegator.detached <;> rw [hd] at hhanded <;> simpa using hhanded
  | false =>
    -- the task goes from the running ones to the finished ones, and stays the task of its todo
    rw [if_neg (by simp)]
    have hnumbers' := h.unjoined_done hl done Prod.fst rfl
    have htodos' := h.unjoined_done hl done (fun p => p.2.todoId) hid
    refine ⟨h.numbers, h.started, hunfinished, ?_, ?_, (hnumbers'.append_left _).trans h.places, h.counter, h.late,
      htodos'.nodup_iff.2 h.single, fun _ => (h.inFlight hc).trans htodos'.symm, h.early, ?_, h.handed⟩
    · rw [List.map_append, h.finished, List.map_singleton]
    · intro p hp
      simp only [List.append_assoc, List.mem_append, List.mem_singleton] at hp
      rcases hp with hp | rfl | hp
      · exact hkept p (h.completed p (List.mem_append_left _ hp))
      · exact ⟨task, outcome, now, hgiven, by simp, hdone⟩
      · exact hkept p (h.completed p (List.mem_append_right _ hp))
    · exact fun hshut => absurd (hc.symm.trans hshut) (by simp)

theorem crash (h : x.Accounted ops) (n : Nat) : (x.step (.crash n)).Accounted (ops ++ [.crash n]) := by
  rcases x.crash_step n with he | ⟨task, hl, he⟩
  · exact h.same he
  rw [he]
  have hmoved : (x.ended ++ (x.delegator.running.filter fun p => p.1 ≠ n) ++ (x.broken ++ [(n, task)])).Perm
      x.unjoined := by
    refine List.Perm.trans ?_ (h.unjoined_taken hl).symm
    rw [← List.append_assoc]
    exact List.perm_append_singleton _ _
  have htodos := hmoved.map fun p => p.2.todoId
  refine ⟨h.numbers, h.started, ?_, h.finished, fun p hp => (h.completed p hp).mono (List.Subset.refl _) _,
    ((hmoved.map Prod.fst).append_left _).trans h.places, h.counter, h.late, htodos.nodup_iff.2 h.single,
    fun ho => (h.inFlight ho).trans htodos.symm, h.early, h.shut, h.handed⟩
  intro p hp
  rw [← List.append_assoc] at hp
  rcases List.mem_append.1 hp with hp | hp
  · exact h.unfinished p ((List.filter_sublist.append_right _).subset hp)
  · rw [List.mem_singleton.1 hp]
    exact h.unfinished _ (List.mem_append_left _ (mem_of_lookup hl))

theorem join (h : x.Accounted ops) : (x.step .join).Accounted (ops ++ [.join]) := by
  rcases join_step h.finished with he | ⟨p, r, hx, he⟩
  · exact h.same he
  rw [he]
  have hunjoined : x.unjoined = p :: (r ++ x.delegator.running ++ x.broken) := by simp [unjoined, hx]
  have hplaces := h.places
  have hsingle := h.single
  rw [hunjoined, List.map_cons] at hplaces hsingle
  refine ⟨h.numbers, h.started, h.unfinished, rfl, ?_, ?_, h.counter, h.late, (List.nodup_cons.1 hsingle).2, ?_, h.early,
    ?_, h.handed⟩
  · intro q hq
    refine (h.completed q ?_).mono (List.Subset.refl _) _
    rw [hx]
    simp only [List.mem_append, List.mem_cons, List.not_mem_nil] at hq ⊢
    tauto
  · refine List.Perm.trans ?_ hplaces
    have hmoved : (p.1 :: (x.late ++ x.lost ++ (r ++ x.delegator.running ++ x.broken).map Prod.fst)).Perm
        (x.late ++ x.lost ++ p.1 :: (r ++ x.delegator.running ++ x.broken).map Prod.fst) := List.perm_middle.symm
    rw [List.append_assoc] at hmoved
    simpa [unjoined] using hmoved.append_left (x.joined.map Prod.fst)
  · intro ho
    have herase := (h.inFlight ho).erase p.2.todoId
    rwa [hunjoined, List.map_cons, List.erase_cons_head] at herase
  · intro hc
    exact absurd (hx.symm.trans (h.shut hc)) (List.cons_ne_nil _ _)

theorem abandon (h : x.Accounted ops) (runtime : Bool) :
    (x.step (.abandon runtime)).Accounted (ops ++ [.abandon runtime]) := by
  have hcompleted : ∀ p ∈ x.joined, x.Ends (ops ++ [.abandon runtime]) p := fun p hp =>
    (h.completed p (List.mem_append_right _ hp)).mono (List.Subset.refl _) _
  have hsingle : ((x.delegator.running ++ x.broken).map fun p => p.2.todoId).Nodup := by
    refine h.single.sublist (List.Sublist.map _ ?_)
    rw [unjoined, List.append_assoc]
    exact List.sublist_append_right _ _
  have hlength : x.delegator.finished.length = x.ended.length := by rw [← h.finished, List.length_map]
  rw [x.abandon_step runtime h.finished h.shut, Delegator.abandon_step]
  refine ⟨h.numbers, h.started, h.unfinished, rfl, hcompleted, ?_, h.counter, ?_, hsingle, nofun, nofun, fun _ => rfl,
    fun _ => ?_⟩
  · refine List.Perm.trans (List.Perm.of_eq ?_) h.places
    have hfirst : x.lost = [] ∨ x.ended = [] := by
      cases hc : x.delegator.closed with
      | true => exact .inr (h.shut hc)
      | false => exact .inl (h.early hc).2.1
    cases runtime with
    | false => simp [unjoined]
    | true => rcases hfirst with hlost | hended <;> simp [unjoined, *]
  · cases hc : x.delegator.closed with
    | true => simp [h.shut hc, h.late]
    | false => cases runtime <;> simp [h.late, hlength]
  · cases hc : x.delegator.closed with
    | true => simpa [h.shut hc] using h.handed hc
    | false =>
      obtain ⟨hlate, hlost, hheld⟩ := h.early hc
      cases runtime <;> simp [hlate, hlost, hheld]

theorem step (h : x.Accounted ops) (o : Op) : (x.step o).Accounted (ops ++ [o]) := by
  cases o with
  | delegate taskId t instructions => exact h.delegate taskId t instructions
  | sit n =>
    obtain ⟨seats, he⟩ := x.sit_step n
    rw [he]
    exact { h.same (o := .sit n) rfl with }
  | finish n outcome now => exact h.finish n outcome now
  | crash n => exact h.crash n
  | join => exact h.join
  | mark id =>
    obtain ⟨processed, he⟩ := x.mark_step id
    rw [he]
    exact { h.same (o := .mark id) rfl with }
  | abandon runtime => exact h.abandon runtime

end Accounted

/-- **The account holds after any steps.** -/
theorem record_accounted (ops : List Op) : (run registry cap ops).Accounted ops := by
  induction ops using List.reverseRecOn with
  | nil => exact start_accounted registry cap
  | append_singleton ops o ih =>
    rw [run_snoc]
    exact ih.step o

theorem run_broken (ops : List Op) : ∀ p ∈ (run registry cap ops).broken, Op.crash p.1 ∈ ops := by
  induction ops using List.reverseRecOn with
  | nil => simp [run, start]
  | append_singleton ops o ih =>
    intro p hp
    rw [run_snoc] at hp
    by_cases ho : o = .crash p.1
    · simp [ho]
    refine List.mem_append_left _ (ih p ?_)
    cases o with
    | crash n =>
      rcases (run registry cap ops).crash_step n with he | ⟨task, -, he⟩ <;> rw [he] at hp
      · exact hp
      · rcases List.mem_append.1 hp with hp | hp
        · exact hp
        · exact absurd (by rw [List.mem_singleton.1 hp]) ho
    | _ => exact hp

/-- what one step dispatches: a task for a todo that is not processed -/
theorem mem_given_step (x : Recorded) (o : Op) :
    ∀ p ∈ (x.step o).given, p ∈ x.given ∨ p.2.todoId ∉ x.delegator.processed := by
  intro p hp
  cases o with
  | delegate taskId t instructions =>
    rcases x.delegate_step taskId t instructions with he | ⟨task, -, hnew, -, hid, -, he⟩ <;> rw [he] at hp
    · exact Or.inl hp
    · rcases List.mem_append.1 hp with hp | hp
      · exact Or.inl hp
      · rw [List.mem_singleton.1 hp]
        exact Or.inr (hid ▸ hnew)
  | _ => exact Or.inl hp

/-- **Nothing is dispatched for a todo after it was marked.** -/
theorem marked_given (pre post : List Op) (id : Ident) :
    ∀ p ∈ (run registry cap (pre ++ .mark id :: post)).given, p.2.todoId = id → p ∈ (run registry cap pre).given := by
  induction post using List.reverseRecOn with
  | nil =>
    intro p hp _
    rw [run_snoc] at hp
    exact hp
  | append_singleton post o ih =>
    intro p hp hid
    rw [← List.cons_append, ← List.append_assoc, run_snoc] at hp
    rcases mem_given_step _ o p hp with hold | hnew
    · exact ih p hold hid
    · refine absurd ?_ hnew
      rw [run_delegator, run_processed, hid]
      simp

namespace Accounted

variable {ops : List Op} {x : Recorded}

theorem unjoined_given (h : x.Accounted ops) {p : Nat × Task} (hp : p ∈ x.unjoined) :
    ∃ task, (p.1, task) ∈ x.given ∧ task.todoId = p.2.todoId := by
  rw [unjoined, List.append_assoc] at hp
  rcases List.mem_append.1 hp with hp | hp
  · obtain ⟨task, outcome, now, hmem, -, hdone⟩ := h.completed p (List.mem_append_left _ hp)
    obtain ⟨done, hdone', hid⟩ := (h.started _ hmem).completes outcome now
    obtain rfl := Except.ok.inj (hdone'.symm.trans hdone)
    exact ⟨task, hmem, hid.symm⟩
  · exact ⟨p.2, h.unfinished p hp, rfl⟩

/-- a task has one number -/
theorem given_unique (h : x.Accounted ops) {n : Nat} {t u : Task} (ht : (n, t) ∈ x.given) (hu : (n, u) ∈ x.given) :
    t = u := by
  have hn : (x.given.map Prod.fst).Nodup := h.numbers ▸ List.nodup_range
  exact congrArg Prod.snd (List.inj_on_of_nodup_map hn ht hu rfl)

/-- **Before the end the todos in flight are those of the tasks that were dispatched and not joined.** -/
theorem mem_inFlight (h : x.Accounted ops) (ho : x.delegator.closed = false) (id : Ident) :
    id ∈ x.delegator.inFlight ↔ ∃ p ∈ x.given, p.2.todoId = id ∧ p.1 ∉ x.joined.map Prod.fst := by
  have hplaces := h.places
  rw [(h.early ho).1, (h.early ho).2.1, List.append_nil, List.append_nil] at hplaces
  rw [(h.inFlight ho).mem_iff, List.mem_map]
  constructor
  · rintro ⟨p, hp, rfl⟩
    obtain ⟨task, hmem, hid⟩ := h.unjoined_given hp
    refine ⟨(p.1, task), hmem, hid, fun hj => ?_⟩
    have hdisjoint := (List.nodup_append.1 (hplaces.nodup_iff.2 List.nodup_range)).2.2
    exact hdisjoint p.1 hj p.1 (List.mem_map_of_mem hp) rfl
  · rintro ⟨⟨n, task⟩, hmem, rfl, hj⟩
    have hn : n ∈ List.range x.delegator.next := h.numbers ▸ List.mem_map_of_mem hmem
    rcases List.mem_append.1 (hplaces.mem_iff.2 hn) with hn | hn
    · exact absurd hn hj
    · obtain ⟨q, hq, rfl⟩ := List.mem_map.1 hn
      obtain ⟨task', hmem', hid⟩ := h.unjoined_given hq
      exact ⟨q, hq, hid ▸ congrArg Task.todoId (h.given_unique hmem' hmem)⟩

/-- **Once no task runs and all have been joined, the tasks that were dispatched are those that were joined, those that
were late or lost, and those that broke down.** -/
theorem balance (h : x.Accounted ops) (hr : x.delegator.running = []) (hf : x.delegator.finished = []) :
    x.delegator.next = x.joined.length + x.delegator.late + x.lost.length + x.broken.length := by
  have hended : x.ended = [] := List.map_eq_nil_iff.1 (h.finished.trans hf)
  have hlength := h.places.length_eq
  simp only [unjoined, hended, hr, List.length_append, List.length_map, List.length_range, List.length_nil,
    Nat.zero_add, h.late] at hlength
  omega

end Accounted

theorem run_closed_iff (ops : List Op) :
    (run registry cap ops).delegator.closed = true ↔ ∃ runtime, Op.abandon runtime ∈ ops := by
  rw [run_delegator]
  exact Delegator.run_closed registry cap ops

theorem run_open (ops : List Op) (hno : ∀ runtime, Op.abandon runtime ∉ ops) :
    (run registry cap ops).delegator.closed = false :=
  Bool.eq_false_iff.2 fun hc => ((run_closed_iff registry cap ops).1 hc).elim hno

/-- with a runtime at hand at the first end no task is lost, without one none is counted as late -/
theorem run_handed {pre : List Op} (hpre : ∀ runtime, Op.abandon runtime ∉ pre) (runtime : Bool) (post : List Op) :
    if runtime then (run registry cap (pre ++ .abandon runtime :: post)).lost = []
    else (run registry cap (pre ++ .abandon runtime :: post)).late = [] := by
  have hclosed := (run_closed_iff registry cap (pre ++ .abandon runtime :: post)).2 ⟨runtime, by simp⟩
  have hhanded := (record_accounted registry cap (pre ++ .abandon runtime :: post)).handed hclosed
  rw [run_delegator, run_detached registry cap hpre] at hhanded
  cases runtime <;> exact hhanded

theorem run_whole (ops : List Op) (hno : Op.abandon false ∉ ops) : (run registry cap ops).lost = [] := by
  have h := record_accounted registry cap ops
  cases hc : (run registry cap ops).delegator.closed with
  | true =>
    have hhanded := h.handed hc
    rw [run_delegator, run_kept registry cap hno] at hhanded
    exact hhanded
  | false => exact (h.early hc).2.1

end Recorded

/-! ## Safety -/

/-- the tasks that call out: those that have a seat -/
def calling (d : Delegator) : List (Nat × Task) := d.running.filter fun p => d.seats.holds p.1

/-- what users of a delegator can rely on, after the steps `ops` -/
structure Safe (ops : List Op) (x : Recorded) : Prop where
  /-- the record is one of the delegator as it is -/
  delegator : x.delegator = run registry cap ops
  calling : x.delegator.calling.length ≤ max cap 1
  single : (x.delegator.running.map fun p => p.2.todoId).Nodup
  inFlight : (∀ runtime, Op.abandon runtime ∉ ops) → x.delegator.inFlight.Nodup ∧
    ∀ id, id ∈ x.delegator.inFlight ↔ ∃ p ∈ x.given, p.2.todoId = id ∧ p.1 ∉ x.joined.map Prod.fst
  /-- no task that was dispatched for a todo was dispatched after the todo was marked -/
  marked : ∀ pre post id, ops = pre ++ .mark id :: post →
    ∀ p ∈ x.given, p.2.todoId = id → p ∈ (Recorded.run registry cap pre).given
  numbers : x.given.map Prod.fst = List.range x.delegator.next
  /-- the count of dispatched tasks goes round in its word -/
  counter : x.delegator.dispatched = .ofNat x.given.length
  finished : x.ended.map Prod.snd = x.delegator.finished
  /-- what a join hands out is a task that was dispatched, with the outcome that it was given -/
  completed : ∀ p ∈ x.joined, x.Ends ops p
  /-- each task that was dispatched is in one place: joined, late, lost, finished, running or broken down -/
  places : (x.joined.map Prod.fst ++ (x.late ++ x.lost) ++ x.unjoined.map Prod.fst).Perm
    (List.range x.delegator.next)
  late : x.late.length = x.delegator.late
  early : (∀ runtime, Op.abandon runtime ∉ ops) → x.late = [] ∧ x.lost = []
  /-- the first end decides: with a runtime at hand no task is lost, without one none is counted as late -/
  handed : ∀ pre post runtime, ops = pre ++ .abandon runtime :: post → (∀ r, Op.abandon r ∉ pre) →
    if runtime then x.lost = [] else x.late = []
  broken : ∀ p ∈ x.broken, Op.crash p.1 ∈ ops
  balance : x.delegator.running = [] → x.delegator.finished = [] → (∀ n, Op.crash n ∉ ops) →
    x.delegator.dispatched = .ofNat (x.joined.length + x.delegator.late + x.lost.length)
  /-- nothing is lost unless there was an end without a runtime at hand -/
  whole : Op.abandon false ∉ ops → x.lost = []
  shut : (∃ runtime, Op.abandon runtime ∈ ops) → x.delegator.join = (x.delegator, none) ∧
    ∀ taskId t instructions, x.delegator.delegate taskId t instructions = .error .closed

theorem calling_le {d : Delegator} {n : Nat} (hn : (d.running.map Prod.fst).Nodup) (hs : d.seats.Fits n) :
    d.calling.length ≤ n := by
  have hsub : d.calling.map Prod.fst ⊆ d.seats.holders := by
    intro k hk
    obtain ⟨p, hp, rfl⟩ := List.mem_map.1 hk
    simpa [Slots.holds] using (List.mem_filter.1 hp).2
  have hnodup : (d.calling.map Prod.fst).Nodup := hn.sublist (List.filter_sublist.map Prod.fst)
  have hle := (hnodup.subperm hsub).length_le
  rw [List.length_map] at hle
  exact hle.trans hs.held

/-- **A delegator is safe, whatever the order of steps.** -/
theorem delegator_safe (ops : List Op) : Safe registry cap ops (Recorded.run registry cap ops) := by
  have hd := Recorded.run_delegator registry cap ops
  have h := Recorded.record_accounted registry cap ops
  have hbroken := Recorded.run_broken registry cap ops
  have hopen := Recorded.run_open registry cap ops
  have hclosed := (Recorded.run_closed_iff registry cap ops).2
  have hwhole := Recorded.run_whole registry cap ops
  have hhanded : ∀ pre post runtime, ops = pre ++ .abandon runtime :: post → (∀ r, Op.abandon r ∉ pre) →
      if runtime then (Recorded.run registry cap ops).lost = [] else (Recorded.run registry cap ops).late = [] := by
    rintro pre post runtime rfl hpre
    exact Recorded.run_handed registry cap hpre runtime post
  generalize hx : Recorded.run registry cap ops = x at *
  have hlength : x.given.length = x.delegator.next := by
    rw [← List.length_map, h.numbers, List.length_range]
  refine
    { delegator := hd
      calling := calling_le h.running_nodup (hd ▸ run_seats registry cap ops)
      single := h.single.sublist ?_
      inFlight := fun hno => ⟨(h.inFlight (hopen hno)).nodup_iff.2 h.single, h.mem_inFlight (hopen hno)⟩
      marked := ?_
      numbers := h.numbers
      counter := hlength ▸ h.counter
      finished := h.finished
      completed := fun p hp => h.completed p (List.mem_append_right _ hp)
      places := h.places
      late := h.late
      early := fun hno => ⟨(h.early (hopen hno)).1, (h.early (hopen hno)).2.1⟩
      handed := hhanded
      broken := hbroken
      balance := ?_
      whole := hwhole
      shut := ?_ }
  · exact List.Sublist.map _ ((List.sublist_append_right _ _).trans (List.sublist_append_left _ _))
  · rintro pre post id rfl
    rw [← hx]
    exact Recorded.marked_given registry cap pre post id
  · intro hr hf hno
    have hnone : x.broken = [] := List.eq_nil_iff_forall_not_mem.2 fun p hp => hno p.1 (hbroken p hp)
    rw [h.counter, h.balance hr hf, hnone]
    rfl
  · intro hyes
    have hc := hclosed hyes
    have hnone : x.delegator.finished = [] := by rw [← h.finished, h.shut hc, List.map_nil]
    exact ⟨by simp only [join, hnone], fun taskId t instructions => by simp [delegate, hc]⟩

def errand : Todo := .fresh (.given "t") "write a parser" .medium

/-- agents that all fail for a passing reason, at once -/
def unreachable : Simulation.Rule := ⟨none, none, none, 0, fun _ => .fails (.transport "reset")⟩

/-- abandoned without a runtime at hand while its task calls out: the task is let go of -/
def letGo : Recorded :=
  .run .standard 1
    [.delegate (.minted 0) errand "write a parser", .sit 0, .abandon false, .finish 0 (.ok .blank) 5, .join]

/-- a join after the call of the task has failed, where the jitter is too great for a draw: the task breaks down before it
calls again -/
def stranded : Simulation.Shift × Option Task :=
  let shift := Simulation.Shift.start { retry := { maxAttempts := 2, jitterFactor := .ofDecimal false 1 308 } } .standard 1
    [unreachable]
  (shift.delegate (.minted 0) errand "write a parser").1.join

/-- **A task that comes to its end, and is neither joined nor counted**: one that was let go of, and one that broke down,
whose todo stays in flight. -/
theorem detached_uncounted :
    (letGo.delegator.running = [] ∧ letGo.delegator.finished = [] ∧ letGo.broken = [] ∧
        letGo.delegator.dispatched = 1 ∧ letGo.joined = [] ∧ letGo.delegator.late = 0 ∧ letGo.lost = [0]) ∧
      stranded.1.delegator.running = [] ∧ stranded.1.delegator.finished = [] ∧
        stranded.1.delegator.dispatched = 1 ∧ stranded.2 = none ∧ stranded.1.delegator.late = 0 ∧
        stranded.1.delegator.inFlight = [errand.id] := by
  decide +kernel

/-- two tasks, of which one has finished and the other has not when the delegator is abandoned: both are late -/
example :
    let todo (id : String) : Todo := .fresh (.given id) "write a parser" .medium
    (Recorded.run .standard 1
      [.delegate (.minted 0) (todo "a") "a", .delegate (.minted 1) (todo "b") "b", .sit 0, .sit 1,
        .finish 0 (.error (.rateLimited "agent" 1)) 5, .abandon true, .finish 1 (.error (.rateLimited "agent" 1)) 9,
        .join]).late = [0, 1] := by
  decide +kernel

end Foreman.Delegator

/-
The finding ids of todos along a review.

Exploring puts a new ledger in place of the old one, at a time when no todo holds a finding id (`Kept.early`). The
findings of scanners are attached to no todo. From then on it is as in the work loop: reviewing takes in tasks, and
breaks a link exactly if a batch overtakes itself.

Results:
- `explore_blank`:   exploring leaves all todos without finding ids.
- `handle_linked`:   one handler.
- `links_unless`:    the loop as a whole.
- `boundary_linked`: a run, on each of its boundaries.
-/
import Mathlib.Tactic
import Foreman.Loop.Review
import Foreman.Proofs.Loop.Drive
import Foreman.Proofs.Loop.Links
import Foreman.Proofs.Machine.Moves

namespace Foreman

namespace ReviewLoop

/-! ## Taking in tasks -/

def books (c : ReviewContext) : Loop.Books := ⟨c.ledger, c.todos, c.nextId⟩

theorem collect_took (s : ReviewContext × Delegator) (t : Task) :
    Loop.Took (books s.1) t (books (collect s t).1) := by
  unfold Loop.Took
  cases hr : t.result with
  | none => simp [books, collect, hr, Loop.settleTodo_held]
  | some p => simp [books, collect, collectPayload, hr, Loop.settleTodo_held, Loop.record, Ledger.after]

theorem collect_todoIds (s : ReviewContext × Delegator) (t : Task) : (collect s t).2.todoIds = s.2.todoIds :=
  Loop.settleTodo_todoIds _ s.2 t

theorem todosFor_new {next : Nat} {changes : ChangeSet} {t : Todo} (h : t ∈ todosFor next changes) : t.New := by
  obtain ⟨i, hi, rfl⟩ := List.mem_mapIdx.1 h
  exact ⟨rfl, rfl, _, rfl⟩

/-- exploring: the scanners fill a new ledger, and no todo holds any of their findings -/
theorem explore_blank (scanners : List Scanner) (changes : ChangeSet) {c : ReviewContext} (h : Loop.Blank c.todos) :
    Loop.Blank (explore scanners changes c).todos ∧ (explore scanners changes c).ledger.Sound := by
  suffices ∀ c : ReviewContext, Loop.Blank c.todos ∧ c.ledger.Sound →
      Loop.Blank (scanners.foldl scan c).todos ∧ (scanners.foldl scan c).ledger.Sound by
    refine this _ ?_
    simp only
    split_ifs
    · have hblank : ∀ t ∈ todosFor c.nextId changes, t.findingIds = [] := fun t ht => (todosFor_new ht).blank
      exact ⟨h.grown (Loop.extend_grown _ hblank), Ledger.sound_empty changes⟩
    · exact ⟨h, Ledger.sound_empty changes⟩
  induction scanners with
  | nil => exact fun c h => h
  | cons scanner scanners ih =>
    refine fun c h => ih (scan c scanner) ?_
    unfold scan
    cases scanner.scan c.changes with
    | none => exact h
    | some reports => exact ⟨h.1.repointAll _, Ledger.after_sound h.2 _⟩

/-- exploring offers what the scanners report to an empty ledger; none of it comes from a todo -/
theorem explore_ledger (scanners : List Scanner) (changes : ChangeSet) (c : ReviewContext) :
    ∃ fs, (∀ f ∈ fs, f.todoId = none) ∧
      (explore scanners changes c).ledger = (Ledger.empty changes).after fs := by
  have hscans : ∀ a : ReviewContext,
      (∃ fs, (∀ f ∈ fs, f.todoId = none) ∧ a.ledger = (Ledger.empty changes).after fs) →
      ∃ fs, (∀ f ∈ fs, f.todoId = none) ∧ (scanners.foldl scan a).ledger = (Ledger.empty changes).after fs := by
    induction scanners with
    | nil => exact fun a h => h
    | cons scanner scanners ih =>
      intro a h
      apply ih
      unfold scan
      cases scanner.scan a.changes with
      | none => exact h
      | some reports =>
        obtain ⟨fs, hnone, hfs⟩ := h
        refine ⟨fs ++ Finding.ofReports a.nextId reports scanner.name none, ?_, ?_⟩
        · exact List.forall_mem_append.2 ⟨hnone, fun f hf => Finding.todoId_of_mem hf⟩
        · simp only [Loop.record, hfs, Ledger.after_append]
          rfl
  unfold explore
  apply hscans
  refine ⟨[], by simp, ?_⟩
  dsimp only
  split_ifs <;> rfl

theorem explore_ids (scanners : List Scanner) (changes : ChangeSet) (c : ReviewContext) :
    c.todos.held.map Prod.fst ⊆ (explore scanners changes c).todos.held.map Prod.fst := by
  have hscans : ∀ a : ReviewContext, (scanners.foldl scan a).todos.held.map Prod.fst = a.todos.held.map Prod.fst := by
    induction scanners with
    | nil => exact fun a => rfl
    | cons scanner scanners ih =>
      intro a
      rw [List.foldl_cons, ih]
      unfold scan
      cases scanner.scan a.changes with
      | none => rfl
      | some reports => exact Loop.repointAll_ids _ _
  unfold explore
  rw [hscans]
  dsimp only
  split_ifs
  · obtain ⟨ids, hheld⟩ := Loop.extend_grown c.todos fun t ht => (todosFor_new (t := t) ht).blank
    rw [hheld, List.map_append]
    exact List.subset_append_left _ _
  · exact List.Subset.refl _

/-! ## One step -/

variable {ω : Type} {w : World ω} {s : Settings} {b : Brief}

/-- the batches that the tasks performed in this step bring, each with the ledger that it meets -/
def offers (w : World ω) (r : Run ω) : List (Ledger × List Finding) :=
  match r.machine.state with
  | .reviewing =>
    let c := r.machine.context.data
    Loop.batches c.nextId c.ledger (Loop.performAll w r.world r.delegator).2.2
  | _ => []

/-- whether the finding ids of all todos point to standing findings -/
def Run.Linked (r : Run ω) : Prop := Loop.Linked r.machine.context.data.ledger r.machine.context.data.todos

/-- the states before the ledger has its scope -/
def Early (state : ReviewState) : Prop := state = .idle ∨ state = .exploring

/-- what holds of a run all along: no move touches the books, which are consistent with the tasks; and until the
ledger has its scope no todo holds a finding id -/
structure Kept (r : Run ω) : Prop where
  hooks : r.machine.definition.Leaves books
  consistent : Loop.Consistent r.machine.context.data.ledger r.machine.context.data.todos r.delegator
  early : Early r.machine.state → Loop.Blank r.machine.context.data.todos ∧ r.delegator.todoIds = []

theorem Kept.late {r : Run ω} (hooks : r.machine.definition.Leaves books)
    (hc : Loop.Consistent r.machine.context.data.ledger r.machine.context.data.todos r.delegator)
    (hs : ¬ Early r.machine.state) : Kept r :=
  ⟨hooks, hc, fun he => absurd he hs⟩

theorem handle_early {r r' : Run ω} {next : ReviewState} (h : handle w s b r = .ok (r', next)) (he : Early next) :
    r.machine.state = .idle ∧ r' = r := by
  unfold handle at h
  cases hs : r.machine.state <;> simp only [hs] at h
  case idle =>
    cases h
    exact ⟨rfl, rfl⟩
  case exploring =>
    cases hb : b.changes <;> simp only [hb] at h <;> cases h
    simp [Early] at he
  case reviewing =>
    simp only [Except.ok.injEq, Prod.mk.injEq] at h
    rw [← h.2] at he
    split_ifs at he <;> simp [Early] at he
  case failed => cases h
  all_goals
    cases h
    simp [Early] at he

/-- one handler: the run is kept, and the batches that it takes in decide about the links -/
theorem handle_linked {r r' : Run ω} {next : ReviewState} (hk : Kept r) (h : handle w s b r = .ok (r', next)) :
    Kept r' ∧ (r'.Linked ↔ r.Linked ∧ ∀ q ∈ offers w r, ¬ q.1.Overtakes q.2) := by
  unfold handle at h
  unfold offers
  have hc := hk.consistent
  have hlate : r.machine.state ≠ .idle → r.machine.state ≠ .exploring → ¬ Early r.machine.state :=
    fun hi he => not_or.2 ⟨hi, he⟩
  cases hs : r.machine.state <;> simp only [hs] at h hlate ⊢
  case idle =>
    cases h
    exact ⟨hk, by simp⟩
  case exploring =>
    cases hb : b.changes with
    | error causes => simp [hb] at h
    | ok changes =>
      simp only [hb, Except.ok.injEq, Prod.mk.injEq] at h
      obtain ⟨rfl, -⟩ := h
      -- the ledger is a new one, but no todo points anywhere yet
      obtain ⟨hblank, htasks⟩ := hk.early (Or.inr hs)
      obtain ⟨hblank', hsound⟩ := explore_blank b.scanners changes hblank
      exact ⟨⟨hk.hooks, hblank'.consistent hsound htasks, fun _ => ⟨hblank', htasks⟩⟩,
        iff_of_true (hblank'.linked _) ⟨hblank.linked _, by simp⟩⟩
  case delegating =>
    cases h
    obtain ⟨hc', hl⟩ := hc.dispatch r.machine.context.data.nextId (instructions r.machine.context.data)
      r.machine.context.data.todos.ready fun t ht => Loop.mem_ready ht
    exact ⟨.late hk.hooks hc' (by simpa [hs, Run.update, Machine.update] using hlate),
      hl.trans (and_iff_left (by simp)).symm⟩
  case reviewing =>
    simp only [Except.ok.injEq, Prod.mk.injEq] at h
    obtain ⟨rfl, -⟩ := h
    obtain ⟨hc', hl⟩ := Loop.Consistent.takeIn books collect_took collect_todoIds w r.world hc
    exact ⟨.late hk.hooks hc' (by simpa [hs, Run.update, Machine.update] using hlate), hl⟩
  case creatingTasks =>
    cases h
    have hg := Loop.planFollowUps_grown r.machine.context.data.todos r.machine.context.data.nextId
      r.machine.context.data.followUps
    exact ⟨.late hk.hooks (hg.consistent hc) (by simpa [hs, Run.update, Machine.update] using hlate),
      hg.linked.trans (and_iff_left (by simp)).symm⟩
  case assessing =>
    cases h
    exact ⟨.late hk.hooks hc (by simpa [hs, Run.update, Machine.update] using hlate),
      by simp [Run.Linked, Run.update, Machine.update]⟩
  case completed =>
    cases h
    exact ⟨hk, by simp⟩
  case failed => cases h

theorem offers_of_error {r : Run ω} {e : LoopError} (h : handle w s b r = .error e) : offers w r = [] := by
  unfold handle at h
  unfold offers
  cases hs : r.machine.state <;> simp only [hs] at h ⊢
  cases h

theorem moveTo_kept {r r' : Run ω} {next : ReviewState} (hk : Kept r)
    (hnext : Early next → Loop.Blank r.machine.context.data.todos ∧ r.delegator.todoIds = [])
    (h : r.moveTo next = .ok r') : Kept r' ∧ (r'.Linked ↔ r.Linked) := by
  unfold Run.moveTo at h
  cases hm : r.machine.moveTo next with
  | error e => simp [hm] at h
  | ok p =>
    simp only [hm, Except.ok.injEq] at h
    subst h
    obtain ⟨hdef, hstate, hbooks⟩ := Machine.moveTo_leaves hk.hooks hm
    have hledger := congrArg Loop.Books.ledger hbooks
    have htodos := congrArg Loop.Books.todos hbooks
    simp only [books] at hledger htodos
    refine ⟨⟨hdef ▸ hk.hooks, ?_, fun he => ?_⟩, ?_⟩
    · simpa only [hledger, htodos] using hk.consistent
    · simpa only [htodos] using hnext (hstate ▸ he)
    · simp only [Run.Linked, hledger, htodos]

/-! ## Runs -/

def cycle (w : World ω) (s : Settings) (b : Brief) : Loop.Cycle (Run ω) ReviewState where
  handle := handle w s b
  move := Run.moveTo
  isDone := fun r => decide (r.machine.state = .completed)
  failure := .failed

theorem cycle_step (r : Run ω) : (cycle w s b).step r = step w s b r := by
  simp only [Loop.Cycle.step, cycle, step]
  cases handle w s b r with
  | error e => rfl
  | ok p =>
    simp only
    cases p.1.moveTo p.2 <;> rfl

theorem cycle_drive (n : Nat) (r : Run ω) : (cycle w s b).drive n r = drive w s b n r := by
  induction n generalizing r with
  | zero => rfl
  | succ n ih =>
    rw [drive, Loop.Cycle.drive, cycle_step]
    by_cases hd : r.machine.state = .completed
    · simp [cycle, hd]
    · simp only [cycle, hd, decide_false, Bool.false_eq_true, if_false]
      cases step w s b r with
      | ok r' => exact ih r'
      | error e => rfl

/-- where a run stands after so many steps; a failed run is in its failure state -/
def boundary (w : World ω) (s : Settings) (b : Brief) (n : Nat) (r : Run ω) : Run ω :=
  match drive w s b n r with
  | .ok r => r
  | .error e => e.2.failed

theorem boundary_eq (n : Nat) (r : Run ω) : boundary w s b n r = (cycle w s b).boundary n r := by
  rw [boundary, Loop.Cycle.boundary, cycle_drive]
  cases drive w s b n r <;> rfl

/-- the batches that tasks brought in the first steps, each with the ledger that it met -/
def offered (w : World ω) (s : Settings) (b : Brief) : Nat → Run ω → List (Ledger × List Finding) :=
  (cycle w s b).gather (offers w)

/-- **A review breaks a link exactly if a batch overtakes itself**, and a broken link stays broken -/
theorem links_unless : (cycle w s b).Unless (offers w) Kept Run.Linked
    (fun r next => Early next → Loop.Blank r.machine.context.data.todos ∧ r.delegator.todoIds = [])
    fun q => q.1.Overtakes q.2 where
  handled := fun r r' next hk h => by
    obtain ⟨hk', hl⟩ := handle_linked hk h
    refine ⟨hk', fun he => ?_, hl⟩
    obtain ⟨hs, rfl⟩ := handle_early h he
    exact hk.early (Or.inl hs)
  refused := fun _ _ h => offers_of_error h
  moved := fun _ _ _ hk hnext h => moveTo_kept hk hnext h
  failure := fun _ _ he => absurd he (by simp [Early, cycle])

theorem boundary_linked (n : Nat) {r : Run ω} (hk : Kept r) :
    (boundary w s b n r).Linked ↔ r.Linked ∧ ∀ q ∈ offered w s b n r, ¬ q.1.Overtakes q.2 := by
  rw [boundary_eq]
  exact links_unless.boundary n hk

theorem draft_leaves {id : String} {max : Nat} {d : Definition ReviewState ReviewContext}
    (h : (draft id max).check = .ok d) : d.Leaves books := by
  obtain ⟨initial, -, rfl⟩ := Draft.check_ok h
  intro k hk c
  change k ∈ [(ReviewState.delegating, countIteration)] at hk
  rw [List.mem_singleton.1 hk]
  rfl

theorem begin_kept {registry : Registry} {id : String} {observers : Nat} {hasStore : Bool} {description : String}
    {todos : List Todo} {nextId : Nat} {world : ω} {r : Run ω} (htodos : ∀ t ∈ todos, t.findingIds = [])
    (h : begin s registry id observers hasStore (.start description todos nextId) world = .ok r) :
    Kept r ∧ r.Linked := by
  unfold begin at h
  split at h
  · cases h
  · cases h
  · rename_i d hd
    cases h
    have hblank : Loop.Blank (.ofList todos) := Loop.blank_ofList htodos
    have htasks : (Delegator.empty registry s.concurrencyCap).todoIds = [] := rfl
    exact ⟨⟨draft_leaves hd, hblank.consistent (Ledger.sound_empty _) htasks, fun _ => ⟨hblank, htasks⟩⟩,
      hblank.linked _⟩

end ReviewLoop

end Foreman

/-
What the verdict of a review lists.

Exploring puts an empty ledger in place, scoped to the changed files, and from then on all findings go through offers to
it: those of the scanners, and those of the tasks in whatever order and as often as they come. So the ledger of a
review is that of its changes after some list of offers, and the verdict is read off it: what is listed stands, and
what stands is distinct, has evidence and lies within the changes.

A verdict comes from a completed review only, whatever context it begins with. Each step leaves fewer steps to take
(`stepsLeft`), so a review that does not fail is completed before its steps run out.

Results:
- `Surveyed.next`:  a step keeps the ledger one of the changes after some offers.
- `next_stepsLeft`: a step leaves fewer steps to take.
- `run_ok`:         a run with a verdict has come to its end.
- `verdict_listing`: what the verdict of a run lists.
-/
import Foreman.Proofs.Assessment
import Foreman.Proofs.Ledger.Vetted
import Foreman.Proofs.Loop.FindingIds
import Foreman.Proofs.Loop.ReviewRounds
import Foreman.Proofs.Loop.Verdict

namespace Foreman

/-- what an assessment of a ledger lists: the standing findings that are confident enough, each of them once, with
evidence and within the changes; the others are counted -/
structure Assessment.Lists (a : Assessment) (l : Ledger) (changes : ChangeSet) (threshold : Binary64) : Prop where
  standing : ∀ f, f ∈ a.findings ↔ f ∈ l.findings ∧ threshold.le f.confidence = true
  ids : (a.findings.map Finding.id).Nodup
  signatures : (a.findings.filterMap Finding.signature).Nodup
  evidence : ∀ f ∈ a.findings, Text.allBlank f.evidence = false
  within : ∀ f ∈ a.findings, ∀ file, f.file = some file → changes.contains file = true
  mentioned : ∀ f ∈ a.findings, f.file = none → changes.mentionedIn f.evidence = true
  total : a.totalFindings = a.findings.length
  counted : a.totalFindings + a.filteredOut = l.size

/-- **The assessment of what was offered to an empty ledger** -/
theorem Assessment.lists_after (changes : ChangeSet) (fs : List Finding) (threshold : Binary64) :
    (ofFindings ((Ledger.empty changes).after fs).findings threshold).Lists ((Ledger.empty changes).after fs) changes
      threshold := by
  have hsound := Ledger.after_sound (Ledger.sound_empty changes) fs
  have hscope := Ledger.after_scope (Ledger.sound_empty changes) fs
  have hvetted := Ledger.vetted_after changes fs
  generalize (Ledger.empty changes).after fs = l at hsound hscope hvetted
  have hscope : l.scope = changes := hscope
  obtain ⟨htotal, hcounted⟩ := Assessment.counted l.findings threshold
  have hmem : ∀ f, f ∈ (ofFindings l.findings threshold).findings ↔
      f ∈ l.findings ∧ threshold.le f.confidence = true := fun f => mem_listed
  -- a listed finding stands, so it was let in
  have hqualifies : ∀ f ∈ (ofFindings l.findings threshold).findings,
      Text.allBlank f.evidence = false ∧ Ledger.inScope changes f = true := by
    intro f hf
    have hq := hvetted f ((hmem f).1 hf).1
    rw [hscope] at hq
    simpa [Ledger.qualifies] using hq
  refine ⟨hmem, ?_, listed_nodup hsound.signatures threshold, fun f hf => (hqualifies f hf).1, ?_, ?_, htotal,
    hcounted⟩
  · have hids : (l.findings.filterMap fun f => some f.id).Nodup := by
      simpa using hsound.ids
    simpa [ofFindings] using listed_nodup hids threshold
  · intro f hf file hfile
    have hin := (hqualifies f hf).2
    simpa only [Ledger.inScope, hfile] using hin
  · intro f hf hnone
    have hin := (hqualifies f hf).2
    simpa only [Ledger.inScope, hnone] using hin

namespace ReviewLoop

/-! ## The ledger of a review -/

variable {ω : Type} {w : World ω} {s : Settings} {b : Brief} {machineId : String}

/-- the ledger is that of the changes, after some offers -/
def Offered (b : Brief) (c : ReviewContext) : Prop :=
  ∃ changes fs, b.changes = .ok changes ∧ c.ledger = (Ledger.empty changes).after fs

theorem Offered.collected {c : ReviewContext} (h : Offered b c) (ts : List Task) (d : Delegator) :
    Offered b (ts.foldl collect (c, d)).1 := by
  obtain ⟨changes, fs, hb, hl⟩ := h
  refine ⟨changes, fs ++ brought c.nextId ts, hb, ?_⟩
  rw [collect_ledger, hl, Ledger.after_append]

/-- what holds of a review all along: from exploring on its ledger is that of its changes, and its verdict is read off
it in the end -/
structure Surveyed (s : Settings) (b : Brief) (r : Run ω) : Prop where
  ledger : ¬ Early r.machine.state → r.machine.state ≠ .failed → Offered b r.machine.context.data
  verdict : r.machine.state = .completed → r.machine.context.data.assessment =
    some (.ofFindings r.machine.context.data.ledger.findings s.review.confidenceThreshold)

/-- **A step keeps the ledger one of the changes.** -/
theorem Surveyed.next {r : Run ω} (h : Surveyed s b r) (hr : Ruled machineId s r) :
    Surveyed s b (next w s b r) := by
  -- it is enough to know the ledger that a step leads to, unless it completes the review
  have hon : ∀ {state c d world}, (ReviewLoop.next w s b r).At state c d world → state ≠ .completed →
      (¬ Early state → state ≠ .failed → Offered b c) → Surveyed s b (ReviewLoop.next w s b r) := by
    intro state c d world hat hopen hledger
    constructor
    · rw [hat.state, hat.data]
      exact hledger
    · intro hcompleted
      exact absurd (hat.state.symm.trans hcompleted) hopen
  cases hs : r.machine.state with
  | idle =>
    apply hon (next_idle w s b hr hs) (by decide)
    intro hlate
    exact absurd (Or.inr rfl) hlate
  | exploring =>
    cases hb : b.changes with
    | error causes =>
      apply hon (next_noChanges w s b hr hs hb) (by decide)
      intro _ hfailed
      exact absurd rfl hfailed
    | ok changes =>
      apply hon (next_exploring w s b hr hs hb) (by decide)
      intro _ _
      obtain ⟨fs, -, hfs⟩ := explore_ledger b.scanners changes r.machine.context.data
      exact ⟨changes, fs, hb, hfs⟩
  | delegating =>
    apply hon (next_delegating w s b hr hs) (by decide)
    intro _ _
    exact h.ledger (by simp [hs, Early]) (by simp [hs])
  | reviewing =>
    apply hon (next_reviewing w s b hr hs)
    · split_ifs <;> decide
    · intro _ _
      exact (h.ledger (by simp [hs, Early]) (by simp [hs])).collected _ _
  | creatingTasks =>
    have hledger := h.ledger (by simp [hs, Early]) (by simp [hs])
    by_cases hi : r.machine.context.data.iteration < s.review.maxIterations
    · apply hon (next_creatingTasks w s b hr hs hi) (by decide)
      intro _ _
      exact hledger
    · apply hon (next_overBudget w s b hr hs hi) (by decide)
      intro _ hfailed
      exact absurd rfl hfailed
  | assessing =>
    have hat := next_assessing w s b hr hs
    have hledger := h.ledger (by simp [hs, Early]) (by simp [hs])
    constructor
    · intro _ _
      rw [hat.data]
      exact hledger
    · intro _
      rw [hat.data]
  | completed =>
    rw [next_completed hs]
    exact h
  | failed =>
    rw [next_failed hr hs]
    exact h

/-! ## Steps that are left -/

/-- how many steps a review can still take at most, in a state and a round -/
def stepsLeft (budget : Nat) (state : ReviewState) (iteration : Nat) : Nat :=
  match state with
  | .idle => 3 * max (budget - iteration) 1 + 2
  | .exploring => 3 * max (budget - iteration) 1 + 1
  | .delegating => 3 * (budget - iteration) + 3
  | .reviewing => 3 * (budget - iteration) + 2
  | .creatingTasks => 3 * (budget - iteration) + 1
  | .assessing => 1
  | .completed => 0
  | .failed => 0

def Run.stepsLeft (s : Settings) (r : Run ω) : Nat :=
  ReviewLoop.stepsLeft s.review.maxIterations r.machine.state r.machine.context.data.iteration

/-- **A step leaves fewer steps to take**, unless there are none left -/
theorem next_stepsLeft {r : Run ω} (hr : Ruled machineId s r) :
    (next w s b r).stepsLeft s ≤ r.stepsLeft s - 1 := by
  have hon : ∀ {state c d world}, (next w s b r).At state c d world →
      (next w s b r).stepsLeft s = stepsLeft s.review.maxIterations state c.iteration := by
    intro state c d world hat
    rw [Run.stepsLeft, hat.state, hat.data]
  cases hs : r.machine.state with
  | idle =>
    rw [hon (next_idle w s b hr hs), Run.stepsLeft, hs]
    simp only [stepsLeft]
    omega
  | exploring =>
    cases hb : b.changes with
    | error causes =>
      rw [hon (next_noChanges w s b hr hs hb)]
      exact Nat.zero_le _
    | ok changes =>
      rw [hon (next_exploring w s b hr hs hb), Run.stepsLeft, hs, (explore_frame b.scanners changes _).1]
      simp only [stepsLeft]
      omega
  | delegating =>
    have hiteration : (dispatch r.machine.context.data r.delegator).1.iteration =
        r.machine.context.data.iteration := rfl
    rw [hon (next_delegating w s b hr hs), Run.stepsLeft, hs, hiteration]
    simp only [stepsLeft]
    omega
  | reviewing =>
    rw [hon (next_reviewing w s b hr hs), Run.stepsLeft, hs, (reviewed_frame w r).1]
    split_ifs <;> simp only [stepsLeft] <;> omega
  | creatingTasks =>
    by_cases hi : r.machine.context.data.iteration < s.review.maxIterations
    · rw [hon (next_creatingTasks w s b hr hs hi), Run.stepsLeft, hs]
      simp only [stepsLeft]
      omega
    · rw [hon (next_overBudget w s b hr hs hi)]
      exact Nat.zero_le _
  | assessing =>
    rw [hon (next_assessing w s b hr hs)]
    exact Nat.zero_le _
  | completed =>
    rw [next_completed hs, Run.stepsLeft, hs]
    exact Nat.zero_le _
  | failed =>
    rw [next_failed hr hs, Run.stepsLeft, hs]
    exact Nat.zero_le _

/-- after as many steps as there were left none is left -/
theorem boundary_stepsLeft (w : World ω) (b : Brief) {r : Run ω} (hr : Ruled machineId s r) {n : Nat}
    (hn : r.stepsLeft s ≤ n) : (boundary w s b n r).stepsLeft s = 0 := by
  have hspent : ∀ n, (boundary w s b n r).stepsLeft s ≤ r.stepsLeft s - n := by
    intro n
    apply along w s b (P := fun n q => q.stepsLeft s ≤ r.stepsLeft s - n) hr le_rfl
    intro n q hq hle
    have hless := next_stepsLeft (w := w) (b := b) hq
    omega
  have hle := hspent n
  omega

/-! ## Runs with a verdict -/

/-- a handler never chooses to fail -/
theorem handle_unfailed {r r' : Run ω} {target : ReviewState} (h : handle w s b r = .ok (r', target)) :
    target ≠ .failed := by
  unfold handle at h
  cases hs : r.machine.state <;> simp only [hs] at h
  case exploring =>
    cases hb : b.changes <;> simp only [hb] at h <;> cases h
    decide
  case reviewing =>
    simp only [Except.ok.injEq, Prod.mk.injEq] at h
    rw [← h.2]
    split_ifs <;> decide
  case failed => cases h
  all_goals
    cases h
    decide

theorem drive_unfailed {n : Nat} {r r' : Run ω} (hf : r.machine.state ≠ .failed) (h : drive w s b n r = .ok r') :
    r'.machine.state ≠ .failed := by
  induction n generalizing r with
  | zero =>
    rw [drive, Except.ok.injEq] at h
    exact h ▸ hf
  | succ n ih =>
    rw [drive] at h
    split_ifs at h with hd
    · rw [Except.ok.injEq] at h
      exact h ▸ hf
    · cases hstep : step w s b r with
      | error e => simp [hstep] at h
      | ok q =>
        simp only [hstep] at h
        refine ih ?_ h
        unfold step at hstep
        cases hh : handle w s b r with
        | error e => simp [hh] at hstep
        | ok p =>
          cases hm : p.1.machine.moveTo p.2 with
          | error e => simp [hh, Run.moveTo, hm] at hstep
          | ok q' =>
            obtain ⟨-, hmoved⟩ := Machine.moveTo_ok hm
            simp only [hh, Run.moveTo, hm, Except.ok.injEq] at hstep
            rw [← hstep, hmoved]
            exact handle_unfailed hh

/-- **A run with a verdict has come to its end**, whatever it began with -/
theorem run_ok {r : Run ω} (hs : s.validate = .ok ()) (hr : Ruled machineId s r)
    (hidle : r.machine.state = .idle) {a : Assessment} (ha : (run w s b r).1 = .ok a) :
    (run w s b r).2.machine = (boundary w s b (stepBound s) r).machine ∧
      (boundary w s b (stepBound s) r).machine.state = .completed ∧
      (boundary w s b (stepBound s) r).machine.context.data.assessment = some a := by
  have hmax := (Settings.validate_ok hs).reviewRounds
  have hbound : r.stepsLeft s ≤ stepBound s := by
    rw [Run.stepsLeft, hidle]
    simp only [stepsLeft, stepBound]
    omega
  have hnone := boundary_stepsLeft w b hr hbound
  unfold run at ha ⊢
  cases hdrive : drive w s b (stepBound s) r with
  | error e => simp [hdrive] at ha
  | ok q =>
    have hq : boundary w s b (stepBound s) r = q := by simp [boundary, hdrive]
    rw [hq] at hnone ⊢
    simp only [hdrive] at ha ⊢
    have hunfailed := drive_unfailed (by rw [hidle]; decide) hdrive
    refine ⟨trivial, ?_, ?_⟩
    · -- all other states but failure leave a step to take
      unfold Run.stepsLeft at hnone
      cases hstate : q.machine.state with
      | completed => rfl
      | failed => exact absurd hstate hunfailed
      | _ =>
        rw [hstate] at hnone
        simp [stepsLeft] at hnone
    · unfold Run.outcome at ha
      cases hverdict : q.machine.context.data.assessment with
      | none => simp [hverdict] at ha
      | some a' => simpa [hverdict] using ha

/-- **What a verdict lists.** Take any review, with any settings that are valid, any context, subagents, scanners and
changes, in any world, and the verdict that it comes to. Its changes were loaded. The verdict lists the findings of the
ledger that reach the threshold, each once, no two of them with one file, line and severity; each has evidence, and a
file that is among the changes or, without a file, evidence that mentions one that is. The others are counted. -/
theorem verdict_listing (w : World ω) (s : Settings) (b : Brief) (registry : Registry) (id : String) (observers : Nat)
    (hasStore : Bool) (c : ReviewContext) (world : ω) {r : Run ω}
    (hr : begin s registry id observers hasStore c world = .ok r) {a : Assessment} (ha : (run w s b r).1 = .ok a) :
    ∃ changes, b.changes = .ok changes ∧
      a.Lists (run w s b r).2.machine.context.data.ledger changes s.review.confidenceThreshold := by
  obtain ⟨hvalid, rfl⟩ := begin_started hr
  have hruled := started_ruled s registry id observers hasStore c world
  have hidle : (started s registry id observers hasStore c world).machine.state = .idle := rfl
  obtain ⟨hmachine, hcompleted, hverdict⟩ := run_ok hvalid hruled hidle ha
  have hstart : Surveyed s b (started s registry id observers hasStore c world) := by
    constructor
    · intro hlate
      exact absurd (Or.inl hidle) hlate
    · intro hdone
      rw [hidle] at hdone
      cases hdone
  have hend : Surveyed s b (boundary w s b (stepBound s) (started s registry id observers hasStore c world)) :=
    along w s b (P := fun _ q => Surveyed s b q) hruled hstart (fun _ _ hq h => h.next hq) (stepBound s)
  obtain ⟨changes, fs, hb, hledger⟩ := hend.ledger (by simp [hcompleted, Early]) (by simp [hcompleted])
  have hlisted := hend.verdict hcompleted
  rw [hverdict, Option.some.injEq] at hlisted
  refine ⟨changes, hb, ?_⟩
  rw [hmachine, hlisted, hledger]
  exact Assessment.lists_after changes fs _

/-- a scanner that is not sure of an issue in a file, nor of another one without a file -/
def unsure : Scanner :=
  ⟨"lint", fun _ => some
    [Loop.sighting "a" 0, { Loop.sighting "n" 0 with file := none, evidence := "see a.py" }]⟩

/-- tasks that confirm the issue, repeat it, and report one that is out of scope and one that they doubt -/
def confirming : World Unit :=
  Loop.reporting [Loop.sighting "b" 1, Loop.sighting "b" 1, { Loop.sighting "c" 1 with file := some "z.py" },
    { Loop.sighting "d" 0 with severity := "low" }]

/-- the confirmed issue is listed once; the two that stay in doubt are left out -/
theorem verdict_listing_confirmed :
    ∃ r, Loop.reviewOnce = .ok r ∧ ∃ a, (run confirming {} ⟨.ok ⟨["a.py"]⟩, [unsure]⟩ r).1 = .ok a ∧
      a.Lists (run confirming {} ⟨.ok ⟨["a.py"]⟩, [unsure]⟩ r).2.machine.context.data.ledger ⟨["a.py"]⟩
        ({} : Settings).review.confidenceThreshold ∧
      a.findings.map Finding.id = [.given "b"] ∧ a.totalFindings = 1 ∧ a.filteredOut = 2 := by
  obtain ⟨r, hr, hrun⟩ : ∃ r, Loop.reviewOnce = .ok r ∧
      ∃ a ∈ (run confirming {} ⟨.ok ⟨["a.py"]⟩, [unsure]⟩ r).1.toOption,
        a.findings.map Finding.id = [.given "b"] ∧ a.totalFindings = 1 ∧ a.filteredOut = 2 :=
    Loop.exists_ok (by decide +kernel)
  obtain ⟨a, ha, hlisted⟩ := Loop.exists_ok hrun
  obtain ⟨changes, hb, hlists⟩ := verdict_listing confirming {} ⟨.ok ⟨["a.py"]⟩, [unsure]⟩ .standard "review" 0 false _
    () hr ha
  cases hb
  exact ⟨r, hr, a, ha, hlists, hlisted⟩

end ReviewLoop

end Foreman

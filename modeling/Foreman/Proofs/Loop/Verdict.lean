/-
The verdict of a review in whatever order its tasks come back.

Collecting tasks offers their findings to the ledger, task by task, and mints an id for each finding that came without
one. Another order of the tasks is another order of the findings, with other minted ids. So the two ledgers agree, and
an assessment of either says the same.

Results:
- `collect_ledger`:    collecting tasks offers what they brought.
- `verdict_any_order`: the order of findings, and of tasks, does not change the verdict.
-/
import Mathlib.Tactic
import Foreman.Loop.Review
import Foreman.Proofs.Ledger.Order

namespace Foreman

namespace ReviewLoop

/-- the findings that tasks bring back, one task after the other, with spare ids minted from `next` on -/
def brought : Nat → List Task → List Finding
  | _, [] => []
  | next, t :: ts =>
    match t.result with
    | some p =>
      Finding.ofReports next p.findings t.subagent (some t.todoId) ++ brought (next + p.findings.length) ts
    | none => brought next ts

theorem collect_ledger (ts : List Task) (c : ReviewContext) (d : Delegator) :
    (ts.foldl collect (c, d)).1.ledger = c.ledger.after (brought c.nextId ts) := by
  induction ts generalizing c d with
  | nil => rfl
  | cons t ts ih =>
    rw [List.foldl_cons, ih]
    cases ht : t.result with
    | none => simp [collect, brought, ht]
    | some p =>
      rw [brought, ht, Ledger.after_append]
      simp [collect, collectPayload, Loop.record, ht, Ledger.after]

/-- what one task brings back, without ids -/
def bare (t : Task) : List Finding :=
  match t.result with
  | some p => (Finding.ofReports 0 p.findings t.subagent (some t.todoId)).map Finding.unnamed
  | none => []

/-- without ids it does not matter from where on they are minted -/
theorem brought_unnamed (next : Nat) (ts : List Task) : (brought next ts).map Finding.unnamed = ts.flatMap bare := by
  induction ts generalizing next with
  | nil => rfl
  | cons t ts ih =>
    rw [List.flatMap_cons, bare, brought]
    cases t.result with
    | none => exact ih next
    | some p =>
      rw [List.map_append, ih]
      congr 1
      refine List.ext_getElem (by simp [Finding.ofReports]) fun i _ _ => ?_
      simp [Finding.ofReports, Finding.ofReport, Finding.unnamed]

/-- **No order changes the verdict.** Take a ledger after any list of offers. Fresh findings offered in two orders
leave ledgers that agree, with the same findings without a file. So do tasks collected in two orders, when what they
brought is fresh in both: then only the minted ids may differ. -/
theorem verdict_any_order (scope : ChangeSet) (before : List Finding) :
    (∀ fs₁ fs₂, fs₁.Perm fs₂ → ((Ledger.empty scope).after before).Fresh fs₁ →
        (((Ledger.empty scope).after before).after fs₁).Agree (((Ledger.empty scope).after before).after fs₂) ∧
          ((((Ledger.empty scope).after before).after fs₁).findings.filter Finding.fileless).Perm
            ((((Ledger.empty scope).after before).after fs₂).findings.filter Finding.fileless)) ∧
      ∀ (c : ReviewContext) (d : Delegator) (ts₁ ts₂ : List Task), c.ledger = (Ledger.empty scope).after before →
        ts₁.Perm ts₂ → c.ledger.Fresh (brought c.nextId ts₁) → c.ledger.Fresh (brought c.nextId ts₂) →
          (ts₁.foldl collect (c, d)).1.ledger.Agree (ts₂.foldl collect (c, d)).1.ledger := by
  have hsound := Ledger.after_sound (Ledger.sound_empty scope) before
  constructor
  · intro fs₁ fs₂ hfs hf
    exact ⟨Ledger.agree_after hsound hf (hf.perm hfs) (hfs.map _), Ledger.fileless_after hsound hf hfs⟩
  · intro c d ts₁ ts₂ hc hts hf₁ hf₂
    rw [collect_ledger, collect_ledger]
    refine Ledger.agree_after (hc ▸ hsound) hf₁ hf₂ ?_
    rw [brought_unnamed, brought_unnamed]
    exact hts.flatMap_right bare

/-- two reports of one issue, equally confident -/
def tied : List Finding :=
  Finding.ofReports 0
    [{ Report.blank with id := some "a", severity := "high", evidence := "line 3", file := some "a.py" },
      { Report.blank with id := some "b", severity := "high", evidence := "line 3", file := some "a.py" }]
    "reviewer" none

/-- the first of the two stands, and the verdict is the same -/
theorem verdict_any_order_tied :
    ((Ledger.empty ⟨["a.py"]⟩).after tied).findings.map Finding.id = [.given "a"] ∧
      ((Ledger.empty ⟨["a.py"]⟩).after tied.reverse).findings.map Finding.id = [.given "b"] ∧
      ((Ledger.empty ⟨["a.py"]⟩).after tied).Agree ((Ledger.empty ⟨["a.py"]⟩).after tied.reverse) := by
  have hfresh : ((Ledger.empty ⟨["a.py"]⟩).after []).Fresh tied :=
    ⟨fun f hf => Finding.made_of_mem hf, by decide +kernel, fun f _ => List.not_mem_nil⟩
  exact ⟨by decide +kernel, by decide +kernel,
    ((verdict_any_order ⟨["a.py"]⟩ []).1 tied tied.reverse tied.reverse_perm.symm hfresh).1⟩

end ReviewLoop

end Foreman

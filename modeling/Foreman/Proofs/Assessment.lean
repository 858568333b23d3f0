/-
The verdict as a function of grades.

An assessment filters, counts and compares its findings by severity and confidence, and of a confidence it sees the
rank alone. So lists with the same grades in whatever order get the same verdict; only the listing itself tells them
apart.

Results:
- `listed_perm`:   the listed findings are the given ones that reach the threshold.
- `counted`:       each finding is listed or left out.
- `listed_grades`: the grades of the listed findings are the given ones that clear the threshold.
- `verdict_congr`: lists with the same grades get the same verdict.
-/
import Mathlib.Tactic
import Foreman.Assessment

namespace Foreman

/-- what an assessment sees of a finding: its severity, and where its confidence stands among the numbers -/
def Finding.grade (f : Finding) : Severity × Option (Int × Int) := (f.severity, f.confidence.rank)

namespace Assessment

theorem listed_perm (fs : List Finding) (threshold : Binary64) :
    (listed fs threshold).Perm (fs.filter fun f => threshold.le f.confidence) :=
  List.mergeSort_perm _ _

theorem mem_listed {fs : List Finding} {threshold : Binary64} {f : Finding} :
    f ∈ listed fs threshold ↔ f ∈ fs ∧ threshold.le f.confidence = true := by
  rw [(listed_perm fs threshold).mem_iff, List.mem_filter]

theorem listed_nodup {β : Type} {key : Finding → Option β} {fs : List Finding} (h : (fs.filterMap key).Nodup)
    (threshold : Binary64) : ((listed fs threshold).filterMap key).Nodup := by
  apply ((listed_perm fs threshold).filterMap key).nodup_iff.2
  exact h.sublist (List.filter_sublist.filterMap key)

/-- each finding is listed or left out -/
theorem counted (fs : List Finding) (threshold : Binary64) :
    (ofFindings fs threshold).totalFindings = (ofFindings fs threshold).findings.length ∧
      (ofFindings fs threshold).totalFindings + (ofFindings fs threshold).filteredOut = fs.length := by
  have hle : (listed fs threshold).length ≤ fs.length := by
    rw [(listed_perm fs threshold).length_eq]
    exact List.length_filter_le _ _
  refine ⟨rfl, ?_⟩
  simp only [ofFindings]
  omega

/-- two assessments say the same, apart from the findings they list -/
structure SameVerdict (a b : Assessment) : Prop where
  counts : a.severityCounts = b.severityCounts
  overall : a.overallSeverity = b.overallSeverity
  recommendation : a.recommendation = b.recommendation
  summary : a.summary = b.summary
  total : a.totalFindings = b.totalFindings
  filtered : a.filteredOut = b.filteredOut

/-- whether a grade clears a threshold -/
def clears (threshold : Binary64) (g : Severity × Option (Int × Int)) : Bool :=
  match threshold.rank, g.2 with
  | some x, some y => Binary64.rankLe x y
  | _, _ => false

theorem listed_grades (fs : List Finding) (threshold : Binary64) :
    ((listed fs threshold).map Finding.grade).Perm ((fs.map Finding.grade).filter (clears threshold)) := by
  rw [List.filter_map]
  exact (listed_perm fs threshold).map _

theorem countOf_eq (fs : List Finding) (s : Severity) : countOf fs s = (fs.map Finding.grade).countP (·.1 == s) := by
  rw [List.countP_map]; rfl

/-- the worst severity is the first that counts at all -/
theorem worst_eq (fs : List Finding) : worst fs = Severity.all.find? fun s => decide (0 < countOf fs s) := by
  unfold worst countOf
  congr 1
  funext s
  rw [Bool.eq_iff_iff]
  simp [List.countP_pos_iff]

/-- **Lists with the same grades get the same verdict.** -/
theorem verdict_congr {fs gs : List Finding} (h : (fs.map Finding.grade).Perm (gs.map Finding.grade))
    (threshold : Binary64) : SameVerdict (ofFindings fs threshold) (ofFindings gs threshold) := by
  have hlisted : ((listed fs threshold).map Finding.grade).Perm ((listed gs threshold).map Finding.grade) :=
    (listed_grades fs threshold).trans ((h.filter _).trans (listed_grades gs threshold).symm)
  have hcount : countOf (listed fs threshold) = countOf (listed gs threshold) := by
    funext s
    rw [countOf_eq, countOf_eq, hlisted.countP_eq]
  have hkept : (listed fs threshold).length = (listed gs threshold).length := by simpa using hlisted.length_eq
  have htotal : fs.length = gs.length := by simpa using h.length_eq
  exact
    { counts := by simp only [ofFindings, hcount]
      overall := by simp only [ofFindings, worst_eq, hcount]
      recommendation := by simp only [ofFindings, hcount]
      summary := by simp only [ofFindings, hcount, hkept]
      total := hkept
      filtered := by simp only [ofFindings, hkept, htotal] }

end Assessment

end Foreman

/-
What an assessment makes of a list of findings.

Findings are compared by severity and then by confidence. A nan is neither more nor less than anything, so that comparison
is no order of all findings. But a nan reaches no threshold, and on numbers the comparison agrees with one that is an order
(`comesFirst`). So the listing is sorted, and findings that are alike in both stay in the order in which they were given.
The counts, the overall severity and the recommendation are read off the listing, and nothing changes when it is assessed
again.

Results:
- `listed_eq`:       the listing is sorted by an order.
- `listed_sorted`, `listed_stable`: in which order.
- `listed_listed`:   a listing is listed as it is.
- `worst_of_sorted`: the overall severity is that of the first finding.
- `recommend_iff`:   what is recommended.
- `rolled_up`:       the whole.
-/
import Foreman.Proofs.Assessment
import Foreman.Proofs.Binary64
import Foreman.Proofs.Sorting

namespace Foreman

theorem Severity.rank_inj {s t : Severity} (h : s.rank = t.rank) : s = t := by
  cases s <;> cases t <;> first | rfl | cases h

theorem Severity.find_worst {p : Severity → Bool} {s : Severity} (hs : p s = true)
    (hworse : ∀ t : Severity, t.rank < s.rank → p t = false) : all.find? p = some s := by
  have hsorted : all.Pairwise fun t u => t.rank < u.rank := by decide
  obtain ⟨worse, rest, hall⟩ := List.append_of_mem (by cases s <;> decide : s ∈ all)
  rw [hall, List.pairwise_append] at hsorted
  rw [List.find?_eq_some_iff_append]
  exact ⟨hs, worse, rest, hall, fun t ht => by rw [hworse t (hsorted.2.2 t ht s List.mem_cons_self)]; rfl⟩

namespace Assessment

/-! ## The order -/

/-- whether a finding may come before another one: it is worse, or as bad and as sure at least; nans come last -/
def comesFirst (a b : Finding) : Bool :=
  decide (a.severity.rank < b.severity.rank) ||
    (a.severity.rank == b.severity.rank && (b.confidence.isNan || b.confidence.le a.confidence))

section Order

variable {a b c : Finding}

theorem comesFirst_iff :
    comesFirst a b = true ↔ a.severity.rank < b.severity.rank ∨
      a.severity.rank = b.severity.rank ∧ (b.confidence.isNan = true ∨ b.confidence.le a.confidence = true) := by
  simp only [comesFirst, Bool.or_eq_true, Bool.and_eq_true, decide_eq_true_eq, beq_iff_eq]

theorem comesFirst_total (a b : Finding) : (comesFirst a b || comesFirst b a) = true := by
  have hconf : (b.confidence.isNan = true ∨ b.confidence.le a.confidence = true) ∨
      a.confidence.isNan = true ∨ a.confidence.le b.confidence = true := by
    cases hb : b.confidence.isNan with
    | true => exact Or.inl (Or.inl rfl)
    | false =>
      cases ha : a.confidence.isNan with
      | true => exact Or.inr (Or.inl rfl)
      | false => exact (Binary64.le_total hb ha).imp Or.inr Or.inr
  rw [Bool.or_eq_true, comesFirst_iff, comesFirst_iff]
  rcases Nat.lt_trichotomy a.severity.rank b.severity.rank with hlt | heq | hlt
  · exact Or.inl (Or.inl hlt)
  · exact hconf.imp (fun h => Or.inr ⟨heq, h⟩) fun h => Or.inr ⟨heq.symm, h⟩
  · exact Or.inr (Or.inl hlt)

theorem comesFirst_trans (a b c : Finding) (hab : comesFirst a b = true) (hbc : comesFirst b c = true) :
    comesFirst a c = true := by
  rw [comesFirst_iff] at *
  rcases hab with hab | ⟨hab, hconf⟩ <;> rcases hbc with hbc | ⟨hbc, hnan | hle⟩
  · exact Or.inl (by omega)
  · exact Or.inl (by omega)
  · exact Or.inl (by omega)
  · exact Or.inl (by omega)
  · exact Or.inr ⟨hab.trans hbc, Or.inl hnan⟩
  · -- `b` is a number, as it is compared with `c`
    have hb := (Binary64.not_nan_of_le hle).2
    have hba := hconf.resolve_left (by rw [hb]; exact Bool.false_ne_true)
    exact Or.inr ⟨hab.trans hbc, Or.inr (Binary64.le_trans hle hba)⟩

/-- on numbers the comparison of an assessment is this order -/
theorem mayPrecede_eq (ha : a.confidence.isNan = false) (hb : b.confidence.isNan = false) :
    mayPrecede a b = comesFirst a b := by
  rw [mayPrecede, comesFirst, Binary64.lt_eq_not_le ha hb, hb, Bool.not_not, Bool.false_or]

end Order

/-! ## The listing -/

section Listing

variable {fs : List Finding} {threshold : Binary64}

theorem listed_not_nan : ∀ f ∈ listed fs threshold, f.confidence.isNan = false := fun _ hf =>
  (Binary64.not_nan_of_le (mem_listed.1 hf).2).2

/-- **The listing is sorted by an order.** -/
theorem listed_eq (fs : List Finding) (threshold : Binary64) :
    listed fs threshold = (fs.filter fun f => threshold.le f.confidence).mergeSort comesFirst := by
  have hnumber : ∀ f ∈ fs.filter (fun f => threshold.le f.confidence), f.confidence.isNan = false := fun f hf =>
    (Binary64.not_nan_of_le (List.mem_filter.1 hf).2).2
  exact Sorting.mergeSort_congr fun a ha b hb => mayPrecede_eq (hnumber a ha) (hnumber b hb)

theorem listed_pairwise (fs : List Finding) (threshold : Binary64) :
    (listed fs threshold).Pairwise fun a b => comesFirst a b = true := by
  rw [listed_eq]
  exact List.pairwise_mergeSort comesFirst_trans comesFirst_total _

theorem listed_sorted (fs : List Finding) (threshold : Binary64) :
    (listed fs threshold).Pairwise fun f g => f.severity.rank < g.severity.rank ∨
      f.severity = g.severity ∧ g.confidence.le f.confidence = true := by
  refine (listed_pairwise fs threshold).imp_of_mem fun {f g} _ hg hfirst => ?_
  refine (comesFirst_iff.1 hfirst).imp_right fun ⟨hsame, hconf⟩ => ⟨Severity.rank_inj hsame, hconf.resolve_left ?_⟩
  rw [listed_not_nan g hg]
  exact Bool.false_ne_true

/-- the listing gets no worse from one finding to the next -/
theorem listed_by_severity (fs : List Finding) (threshold : Binary64) :
    (listed fs threshold).Pairwise fun f g => f.severity.rank ≤ g.severity.rank := by
  refine (listed_sorted fs threshold).imp ?_
  rintro f g (hlt | ⟨heq, -⟩)
  · exact Nat.le_of_lt hlt
  · rw [heq]

/-- **Findings that are alike** in severity and confidence stay in the order in which they were given. -/
theorem listed_stable (fs : List Finding) (threshold : Binary64) (s : Severity) (x : Binary64) :
    ((listed fs threshold).filter fun f => f.severity == s && f.confidence.equal x) =
      (fs.filter fun f => threshold.le f.confidence).filter fun f => f.severity == s && f.confidence.equal x := by
  rw [listed_eq]
  refine Sorting.filter_mergeSort comesFirst_trans comesFirst_total fun f g hf hg => ?_
  simp only [Bool.and_eq_true, beq_iff_eq, Binary64.equal] at hf hg
  obtain ⟨rfl, -, hxf⟩ := hf
  obtain ⟨hsame, hgx, -⟩ := hg
  exact comesFirst_iff.2 (Or.inr ⟨by rw [hsame], Or.inr (Binary64.le_trans hgx hxf)⟩)

theorem listed_of_pairwise (h : fs.Pairwise fun a b => comesFirst a b = true) (threshold : Binary64) :
    listed fs threshold = fs.filter fun f => threshold.le f.confidence := by
  rw [listed_eq, List.mergeSort_of_pairwise (h.filter _)]

/-- **A listing is listed as it is.** -/
theorem listed_listed (fs : List Finding) (threshold : Binary64) :
    listed (listed fs threshold) threshold = listed fs threshold := by
  rw [listed_of_pairwise (listed_pairwise fs threshold)]
  exact List.filter_eq_self.2 fun f hf => (mem_listed.1 hf).2

end Listing

/-! ## What is read off the listing -/

theorem countOf_pos {fs : List Finding} {s : Severity} : 0 < countOf fs s ↔ ∃ f ∈ fs, f.severity = s := by
  simp only [countOf, List.countP_pos_iff, beq_iff_eq]

theorem sum_countOf (fs : List Finding) : (Severity.all.map (countOf fs)).sum = fs.length := by
  induction fs with
  | nil => rfl
  | cons f fs ih =>
    simp only [Severity.all, List.map_cons, List.map_nil, List.sum_cons, List.sum_nil, countOf, List.countP_cons,
      List.length_cons] at ih ⊢
    cases f.severity <;> simp <;> omega

theorem count_eq (fs : List Finding) (threshold : Binary64) (s : Severity) :
    (ofFindings fs threshold).count s = countOf (ofFindings fs threshold).findings s := by
  cases s <;> rfl

/-- **The overall severity** of a sorted list is that of its first finding. -/
theorem worst_of_sorted {fs : List Finding} (h : fs.Pairwise fun f g => f.severity.rank ≤ g.severity.rank) :
    worst fs = fs.head?.map (·.severity) := by
  cases fs with
  | nil => rfl
  | cons f fs =>
    refine Severity.find_worst (by simp) fun s hs => ?_
    -- nothing that is listed is worse than the first
    have hfirst : ∀ g ∈ f :: fs, f.severity.rank ≤ g.severity.rank :=
      List.forall_mem_cons.2 ⟨Nat.le_refl _, (List.pairwise_cons.1 h).1⟩
    simp only [List.any_eq_false, beq_iff_eq]
    rintro g hg rfl
    exact absurd hs (Nat.not_lt.2 (hfirst g hg))

/-- **What is recommended**, by the severities that count. -/
theorem recommend_iff (count : Severity → Nat) :
    (recommend count = .block ↔ 0 < count .critical) ∧
      (recommend count = .needsChanges ↔ ¬0 < count .critical ∧ (0 < count .high ∨ 0 < count .medium)) ∧
      (recommend count = .approve ↔ ¬0 < count .critical ∧ ¬(0 < count .high ∨ 0 < count .medium)) := by
  unfold recommend
  split_ifs <;> simp_all

/-! ## The whole -/

/-- what an assessment makes of a list of findings -/
structure RolledUp (fs : List Finding) (threshold : Binary64) (a : Assessment) : Prop where
  /-- listed are the findings that reach the threshold, each as often as it was given -/
  listed : a.findings.Perm (fs.filter fun f => threshold.le f.confidence)
  /-- a nan is not listed, so it is never compared -/
  numbers : ∀ f ∈ a.findings, f.confidence.isNan = false
  /-- the worst come first, and of one severity the surest -/
  sorted : a.findings.Pairwise fun f g => f.severity.rank < g.severity.rank ∨
    f.severity = g.severity ∧ g.confidence.le f.confidence = true
  /-- findings that are alike in both stay in the order in which they were given -/
  stable : ∀ s x, (a.findings.filter fun f => f.severity == s && f.confidence.equal x) =
    (fs.filter fun f => threshold.le f.confidence).filter fun f => f.severity == s && f.confidence.equal x
  /-- every severity has its count -/
  counts : a.severityCounts = Severity.all.map fun s => (s, a.findings.countP fun f => f.severity == s)
  count : ∀ s, a.count s = a.findings.countP fun f => f.severity == s
  sum : (a.severityCounts.map Prod.snd).sum = a.totalFindings
  total : a.totalFindings = a.findings.length
  /-- each finding that was given is listed or left out -/
  accounted : a.totalFindings + a.filteredOut = fs.length
  overall : a.overallSeverity = a.findings.head?.map (·.severity)
  block_iff : a.recommendation = .block ↔ ∃ f ∈ a.findings, f.severity = .critical
  needsChanges_iff : a.recommendation = .needsChanges ↔ (¬∃ f ∈ a.findings, f.severity = .critical) ∧
    ∃ f ∈ a.findings, f.severity = .high ∨ f.severity = .medium
  approve_iff : a.recommendation = .approve ↔ ∀ f ∈ a.findings, f.severity = .low ∨ f.severity = .info
  /-- assessed again, the listed findings get the same assessment, and none is left out -/
  again : ofFindings a.findings threshold = { a with filteredOut := 0 }

/-- **What an assessment makes of a list of findings**, with whatever confidences and threshold. -/
theorem rolled_up (fs : List Finding) (threshold : Binary64) : RolledUp fs threshold (ofFindings fs threshold) := by
  obtain ⟨htotal, haccounted⟩ := counted fs threshold
  obtain ⟨hblock, hchanges, happrove⟩ := recommend_iff (countOf (listed fs threshold))
  exact
    { listed := listed_perm fs threshold
      numbers := listed_not_nan
      sorted := listed_sorted fs threshold
      stable := listed_stable fs threshold
      counts := rfl
      count := count_eq fs threshold
      sum := sum_countOf (Assessment.listed fs threshold)
      total := htotal
      accounted := haccounted
      overall := worst_of_sorted (listed_by_severity fs threshold)
      block_iff := hblock.trans countOf_pos
      needsChanges_iff := by
        refine hchanges.trans ?_
        simp only [countOf_pos, ← exists_or, ← and_or_left]
        rfl
      approve_iff := by
        refine happrove.trans ?_
        simp only [countOf_pos, ← exists_or, ← and_or_left, not_exists, not_and, ← forall_and]
        refine forall_congr' fun f => ?_
        cases f.severity <;> simp [ofFindings]
      again := by simp only [ofFindings, listed_listed, Nat.sub_self] }

end Assessment

end Foreman

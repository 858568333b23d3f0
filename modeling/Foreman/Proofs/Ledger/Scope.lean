/-
Paths in normal form, and which findings are in the scope of a ledger.

A path is put into its normal form when it is listed among the changed files, when a finding is made of a report, and once
more whenever a change set is asked for it. So what the ledger asks for is the normal form of the normal form of the
reported file. The two are the same unless the normal form begins with a blank, which it does if a blank stands behind the
`./` that was taken off: the next time it is trimmed off too. Of such a path the ledger and the change set say different
things, and a report on it is refused although the path itself is on the list of the changed files.

Results:
- `normalizePath_idem`: whose normal form is its own normal form.
- `contains_ofList`:    which paths are in the change set of a list of paths.
- `offers_in_scope`:    which reports are refused as out of scope, and when the change set says the same.
- `listed_refused`:     a path that is listed, and a report on it that is refused.
-/
import Foreman.Proofs.Ledger.Offer
import Foreman.Proofs.Text

namespace Foreman

open Text

/-! ## The normal form of a path -/

theorem dropHere_suffix (cs : List Char) : dropHere cs <:+ cs := by
  induction cs using dropHere.induct with
  | case1 r ih =>
    rw [dropHere]
    exact ih.trans ((List.suffix_cons _ _).trans (List.suffix_cons _ _))
  | case2 cs h => rw [dropHere.eq_2 cs h]

theorem dropHere_idem (cs : List Char) : dropHere (dropHere cs) = dropHere cs := by
  induction cs using dropHere.induct with
  | case1 r ih => rw [dropHere, ih]
  | case2 cs h => rw [dropHere.eq_2 cs h, dropHere.eq_2 cs h]

theorem forwardSlashes_eq_self {cs : List Char} (h : ∀ c ∈ cs, c ≠ '\\') : forwardSlashes cs = cs :=
  (List.map_congr_left fun c hc => if_neg (h c hc)).trans (List.map_id cs)

theorem forwardSlashes_no_backslash (cs : List Char) : ∀ c ∈ forwardSlashes cs, c ≠ '\\' := by
  intro c hc
  obtain ⟨d, -, rfl⟩ := List.mem_map.1 hc
  split_ifs with hd
  · decide
  · exact hd

theorem forwardSlashes_last {cs : List Char} (h : ∀ c ∈ cs.getLast?, isBlank c = false) :
    ∀ c ∈ (forwardSlashes cs).getLast?, isBlank c = false := by
  intro c hc
  rw [forwardSlashes, List.getLast?_map] at hc
  obtain ⟨d, hd, rfl⟩ := Option.map_eq_some_iff.1 hc
  split_ifs
  · decide
  · exact h d hd

theorem toList_normalizePath (p : String) :
    (normalizePath p).toList = dropHere (forwardSlashes (trimChars p.toList)) := by
  simp [normalizePath]

theorem normalizePath_last (p : String) : ∀ c ∈ (normalizePath p).toList.getLast?, isBlank c = false := by
  intro c hc
  rw [toList_normalizePath] at hc
  obtain ⟨front, hfront⟩ := dropHere_suffix (forwardSlashes (trimChars p.toList))
  have hlast : ∀ d ∈ (trimChars p.toList).getLast?, isBlank d = false := fun d hd => trimChars_last hd
  refine forwardSlashes_last hlast c ?_
  rw [← hfront, List.getLast?_append, hc]
  rfl

/-- the normal form of a path does not begin with a blank -/
def Settled (p : String) : Prop := ∀ c ∈ (normalizePath p).toList.head?, isBlank c = false

instance (p : String) : Decidable (Settled p) := Option.decidableForallMem _

/-- **A normal form is its own normal form** unless it begins with a blank. -/
theorem normalizePath_idem (p : String) : normalizePath (normalizePath p) = normalizePath p ↔ Settled p := by
  rw [← String.toList_inj, toList_normalizePath (normalizePath p)]
  have hslash : ∀ c ∈ (normalizePath p).toList, c ≠ '\\' := by
    rw [toList_normalizePath]
    exact fun c hc => forwardSlashes_no_backslash _ c ((dropHere_suffix _).subset hc)
  have hhere : dropHere (normalizePath p).toList = (normalizePath p).toList := by
    rw [toList_normalizePath, dropHere_idem]
  constructor
  · intro h c hc
    rw [← Bool.not_eq_true]
    intro hblank
    obtain ⟨r, hr⟩ := List.head?_eq_some_iff.1 hc
    have hlt : (trimChars (normalizePath p).toList).length < (normalizePath p).toList.length := by
      rw [hr]
      exact trimChars_length_lt hblank
    have hle := (dropHere_suffix (forwardSlashes (trimChars (normalizePath p).toList))).length_le
    rw [h, forwardSlashes, List.length_map] at hle
    omega
  · intro h
    rw [trimChars_eq_self h (normalizePath_last p), forwardSlashes_eq_self hslash, hhere]

/-! ## The change set of a list of paths -/

theorem Names.mem_insert {n m : String} {ns : List String} : m ∈ insert n ns ↔ m = n ∨ m ∈ ns := by
  induction ns with
  | nil => simp [insert]
  | cons k ns ih =>
    rw [insert]
    split_ifs with hlt heq
    · simp
    · simp [heq]
    · simp only [List.mem_cons, ih]
      exact or_left_comm

theorem Names.mem_ofList {ns : List String} {m : String} : m ∈ ofList ns ↔ m ∈ ns := by
  rw [ofList]
  induction ns using List.reverseRecOn with
  | nil => simp
  | append_singleton ns n ih => simp [mem_insert, ih, or_comm]

/-- **A change set has the paths whose normal form is that of a path of its list**, and is not empty. -/
theorem ChangeSet.contains_ofList (paths : List String) (p : String) :
    (ofList paths).contains p = true ↔ normalizePath p ≠ "" ∧ ∃ q ∈ paths, normalizePath q = normalizePath p := by
  simp only [contains, ofList, List.contains_iff_mem, Names.mem_ofList, List.mem_filter, List.mem_map,
    Bool.not_eq_true', String.isEmpty_eq_false_iff]
  exact and_comm

/-! ## Reports on a file -/

/-- a report on the file `p` with evidence, offered to the ledger of a list of changed files -/
structure Filing (p : String) where
  /-- the changed files, as they were listed -/
  paths : List String
  /-- what the ledger was offered before -/
  before : List Finding
  report : Report
  spare : Ident
  source : String
  todoId : Option Ident
  file : report.file = some p
  evidence : allBlank report.evidence = false

namespace Filing

variable {p : String} (s : Filing p)

def changes : ChangeSet := .ofList s.paths

def ledger : Ledger := (Ledger.empty s.changes).after s.before

def finding : Finding := .ofReport s.spare s.report s.source s.todoId

def verdict : Except Rejection Entry := (s.ledger.offer s.finding).2

/-- the report is refused since its file is not among the changed ones -/
def OutOfScope : Prop := s.verdict = .error (.outOfScope s.finding.id (normalizePath p))

theorem finding_file (hp : normalizePath p ≠ "") : s.finding.file = some (normalizePath p) := by
  simp [finding, Finding.ofReport, s.file, Option.filter, hp]

theorem ledger_scope : s.ledger.scope = s.changes :=
  Ledger.after_scope (Ledger.sound_empty s.changes) s.before

theorem objection (hp : normalizePath p ≠ "") :
    s.ledger.objection? s.finding =
      if s.changes.contains (normalizePath p) = false then some (.outOfScope s.finding.id (normalizePath p))
      else if s.finding.id ∈ s.ledger.seen then some (.duplicateId s.finding.id) else none := by
  have hevidence : allBlank s.finding.evidence = false := s.evidence
  simp [Ledger.objection?, hevidence, s.finding_file hp, s.ledger_scope]

/-- what is said of the report is out of scope, known by its id, or accepted -/
theorem verdict_cases (hp : normalizePath p ≠ "") :
    s.changes.contains (normalizePath p) = false ∧ s.OutOfScope ∨
      s.changes.contains (normalizePath p) = true ∧
        (s.finding.id ∈ s.ledger.seen ∧ s.verdict = .error (.duplicateId s.finding.id) ∨
          s.finding.id ∉ s.ledger.seen ∧ ∃ e, s.verdict = .ok e) := by
  have ho := s.objection hp
  rw [OutOfScope, verdict, Ledger.offer]
  split_ifs at ho with hscope hseen <;> rw [ho]
  · exact Or.inl ⟨hscope, rfl⟩
  · exact Or.inr ⟨Bool.eq_true_of_not_eq_false hscope, Or.inl ⟨hseen, rfl⟩⟩
  · exact Or.inr ⟨Bool.eq_true_of_not_eq_false hscope, Or.inr ⟨hseen, _, rfl⟩⟩

theorem outOfScope_iff (hp : normalizePath p ≠ "") : s.OutOfScope ↔ s.changes.contains (normalizePath p) = false := by
  rcases s.verdict_cases hp with ⟨hc, ho⟩ | ⟨hc, ⟨-, hv⟩ | ⟨-, e, hv⟩⟩
  · simp [hc, ho]
  · simp [hc, hv, OutOfScope]
  · simp [hc, hv, OutOfScope]

/-- a report on a file that is the only one listed -/
def alone (p : String) : Filing p where
  paths := [p]
  before := []
  report := { Report.blank with evidence := "e", file := some p }
  spare := .minted 0
  source := "s"
  todoId := none
  file := rfl
  evidence := (by decide : allBlank "e" = false)

end Filing

/-- what the change set says of the file `p`, and what the ledger says of reports on it -/
structure ScopeAgrees (p : String) : Prop where
  /-- the ledger asks for the normal form, which is put into normal form once more -/
  refused_iff : ∀ s : Filing p, s.OutOfScope ↔ s.changes.contains (normalizePath p) = false
  /-- so it agrees with the change set, whatever is listed and reported, exactly if the path is settled -/
  agrees_iff : (∀ s : Filing p, s.OutOfScope ↔ s.changes.contains p = false) ↔ Settled p
  /-- a report on a settled path of the change set is accepted if its id is new -/
  accepted : Settled p → ∀ s : Filing p, s.changes.contains p = true → s.finding.id ∉ s.ledger.seen →
    ∃ e, s.verdict = .ok e
  /-- it is not out of scope if the path itself is listed -/
  listed : Settled p → ∀ s : Filing p, p ∈ s.paths → ¬s.OutOfScope

/-- **The ledger refuses a report as out of scope exactly if the change set does not have its file**, for all paths that
are settled and no others. -/
theorem offers_in_scope (p : String) (hp : normalizePath p ≠ "") : ScopeAgrees p := by
  have hrefused : ∀ s : Filing p, s.OutOfScope ↔ s.changes.contains (normalizePath p) = false :=
    fun s => s.outOfScope_iff hp
  have hagrees : Settled p → ∀ s : Filing p, s.OutOfScope ↔ s.changes.contains p = false := by
    intro h s
    rw [hrefused, ChangeSet.contains, (normalizePath_idem p).2 h, ChangeSet.contains]
  have hlisted : ∀ s : Filing p, p ∈ s.paths → s.changes.contains p = true :=
    fun s hs => (ChangeSet.contains_ofList _ _).2 ⟨hp, p, hs, rfl⟩
  refine ⟨hrefused, ⟨fun h => ?_, hagrees⟩, fun h s hc hid => ?_, fun h s hs ho => ?_⟩
  · -- with the path alone on the list the normal form is in the change set if it is its own normal form
    have hin : ¬(Filing.alone p).OutOfScope := by
      rw [h, hlisted _ (List.mem_singleton_self p)]
      decide
    rw [hrefused, Bool.not_eq_false, Filing.changes, ChangeSet.contains_ofList] at hin
    obtain ⟨-, q, hq, heq⟩ := hin
    rw [List.mem_singleton.1 hq] at heq
    exact (normalizePath_idem p).1 heq.symm
  · rcases s.verdict_cases hp with ⟨-, ho⟩ | ⟨-, ⟨hseen, -⟩ | ⟨-, he⟩⟩
    · rw [hagrees h s, hc] at ho
      cases ho
    · exact absurd hseen hid
    · exact he
  · rw [hagrees h s, hlisted s hs] at ho
    cases ho

theorem offers_in_scope_source : normalizePath "./src\\a.py " ≠ "" ∧ Settled "./src\\a.py " ∧ ScopeAgrees "./src\\a.py " :=
  ⟨by decide +kernel, by decide +kernel, offers_in_scope "./src\\a.py " (by decide +kernel)⟩

/-- a blank behind the `./`: the path is listed, the change set has it, and the first report on it is refused -/
theorem listed_refused :
    let s := Filing.alone "./ a"
    normalizePath "./ a" = " a" ∧ "./ a" ∈ s.paths ∧ s.changes.contains "./ a" = true ∧
      s.verdict = .error (.outOfScope (.minted 0) " a") := by
  decide +kernel

end Foreman

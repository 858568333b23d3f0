/-
Where a goal is cut at its conjunctions, and what is lost by it.

A conjunction is looked for in the small letters of a clause, and the clause is cut after as many bytes as stand before it
there. That is the right place if the text before it takes as many bytes as its small letters do. The planner only makes
sure that the whole clause does, and a letter that gets longer before the conjunction may be made up for by one that gets
shorter behind it. Then the clause is cut elsewhere: in the middle of a character, so that there is no plan, or beside
the conjunction, so that something else than the conjunction is left out.

`Steady` says that this happens nowhere while a goal is taken apart. It holds of every goal whose letters change their
size in one direction only (`OneWay`), so a wrong cut takes two letters, one that gets longer and one that gets shorter.

Results:
- `cutOnce_cuts`:     all that may become of a clause.
- `CutAt.foundAt_iff`: which cuts are made where the conjunction was found.
- `passes_pieces`:    a steady goal is taken apart into pieces that make it up, with conjunctions and blanks between them.
- `goal_cuts`:        which goals are cut only where conjunctions were found, and what becomes of them.
- `cut_beside`:       a goal without a plan, and a clause that loses a letter.
-/
import Foreman.Proofs.Text
import Foreman.Todo.Plan

namespace Foreman.Plan

open Text

/-! ## One cut -/

/-- a text that is not empty, all of plain letters -/
def PlainWord (conj : List Char) : Prop := conj ≠ [] ∧ ∀ c ∈ conj, Plain c

theorem plainWord_of_mem {conj : String} (h : conj ∈ conjunctions) : PlainWord conj.toList := by
  have hall : conjunctions.all (fun conj => !conj.toList.isEmpty && conj.toList.all fun c => decide (Plain c)) := by
    decide +kernel
  simpa [PlainWord] using List.all_eq_true.1 hall conj h

/-- a clause is cut into what stands before, at and behind the first occurrence of a conjunction, in any letter case -/
structure FoundAt (conj clause left middle right : List Char) : Prop where
  whole : clause = left ++ middle ++ right
  words : lowerChars middle = conj
  first : ∀ l m r, clause = l ++ m ++ r → lowerChars m = conj → left.length ≤ l.length

/-- a clause is cut as the planner cuts it: by numbers of bytes that were counted in its small letters -/
structure CutAt (conj clause left middle right : List Char) : Prop where
  whole : clause = left ++ middle ++ right
  fits : byteSize (lowerChars clause) = byteSize clause
  place : ∃ before behind, cut? conj (lowerChars clause) = some (before, behind) ∧ byteSize left = byteSize before
  width : byteSize middle = byteSize conj

def side (cs : List Char) : List (List Char) := [trimChars cs].filter fun s => !s.isEmpty

/-- all that may become of a clause -/
inductive Cuts (conj clause : List Char) : Option (List (List Char)) → Prop
  /-- no conjunction is found in it, or its small letters are of another size: it stays whole -/
  | whole (h : cut? conj (lowerChars clause) = none ∨ byteSize (lowerChars clause) ≠ byteSize clause) :
      Cuts conj clause (some [clause])
  /-- it is cut -/
  | made {left middle right : List Char} (h : CutAt conj clause left middle right) :
      Cuts conj clause (some (side left ++ side right))
  /-- the place where it would be cut is inside a character -/
  | inside (hfound : (cut? conj (lowerChars clause)).isSome = true)
      (hfits : byteSize (lowerChars clause) = byteSize clause) (h : ∀ l m r, ¬CutAt conj clause l m r) :
      Cuts conj clause none

/-- a clause can be cut exactly where the two numbers of bytes lead to -/
theorem cutAt_iff_split {conj clause before behind left middle right : List Char}
    (hfound : cut? conj (lowerChars clause) = some (before, behind))
    (hfits : byteSize (lowerChars clause) = byteSize clause) :
    CutAt conj clause left middle right ↔
      splitBytes? (byteSize before) clause = some (left, middle ++ right) ∧
        splitBytes? (byteSize conj) (middle ++ right) = some (middle, right) := by
  rw [splitBytes?_eq_some, splitBytes?_eq_some]
  constructor
  · rintro ⟨hwhole, -, ⟨before', behind', hfound', hleft⟩, hwidth⟩
    rw [hfound, Option.some.injEq, Prod.mk.injEq] at hfound'
    exact ⟨⟨by rw [hwhole, List.append_assoc], by rw [hleft, hfound'.1]⟩, rfl, hwidth⟩
  · rintro ⟨⟨hwhole, hleft⟩, -, hwidth⟩
    exact ⟨by rw [hwhole, List.append_assoc], hfits, ⟨before, behind, hfound, hleft⟩, hwidth⟩

/-- **A clause stays whole, or is cut, or the cut falls inside a character.** -/
theorem cutOnce_cuts (conj clause : List Char) : Cuts conj clause (cutOnce conj clause) := by
  simp only [cutOnce]
  cases hfound : cut? conj (lowerChars clause) with
  | none => exact .whole (Or.inl hfound)
  | some found =>
    obtain ⟨before, behind⟩ := found
    by_cases hfits : byteSize (lowerChars clause) = byteSize clause
    · simp only [hfits, if_true]
      have hinside : (∀ l m r, ¬CutAt conj clause l m r) → Cuts conj clause none :=
        .inside (by rw [hfound]; rfl) hfits
      cases hleft : splitBytes? (byteSize before) clause with
      | none =>
        apply hinside
        intro l m r h
        have hsplit := ((cutAt_iff_split hfound hfits).1 h).1
        rw [hleft] at hsplit
        cases hsplit
      | some p =>
        obtain ⟨left, rest⟩ := p
        rw [Option.bind_eq_bind, Option.bind_some]
        cases hright : splitBytes? (byteSize conj) rest with
        | none =>
          apply hinside
          intro l m r h
          obtain ⟨hl, hm⟩ := (cutAt_iff_split hfound hfits).1 h
          rw [hleft, Option.some.injEq, Prod.mk.injEq] at hl
          rw [← hl.2, hright] at hm
          cases hm
        | some q =>
          obtain ⟨middle, right⟩ := q
          obtain ⟨rfl, -⟩ := splitBytes?_eq_some.1 hright
          have hsides : [trimChars left, trimChars right].filter (fun s => !s.isEmpty) = side left ++ side right :=
            List.filter_append [trimChars left] [trimChars right]
          rw [Option.bind_some, Option.pure_def, hsides]
          exact .made ((cutAt_iff_split hfound hfits).2 ⟨hleft, hright⟩)
    · simp only [hfits, if_false]
      exact .whole (Or.inr hfits)

section Found

variable {conj clause left middle right : List Char}

/-- two ways to take one clause apart, each after its front -/
theorem fronts {l m r l' m' r' : List Char} (h : clause = l ++ m ++ r) (h' : clause = l' ++ m' ++ r') :
    l ++ (m ++ r) = l' ++ (m' ++ r') := by
  rw [← List.append_assoc, ← List.append_assoc, ← h, ← h']

theorem exists_foundAt (hconj : PlainWord conj) {before behind : List Char}
    (h : cut? conj (lowerChars clause) = some (before, behind)) :
    ∃ l m r, FoundAt conj clause l m r ∧ lowerChars l = before := by
  obtain ⟨l, m, r, hclause, hl, hm, -, -⟩ := lowerChars_eq_append hconj.2 hconj.1 (cut?_eq_append h)
  refine ⟨l, m, r, ⟨hclause, hm, fun l' m' r' hclause' hm' => ?_⟩, hl⟩
  have hsmall : lowerChars clause = lowerChars l' ++ conj ++ lowerChars r' := by
    rw [hclause', lowerChars_append, lowerChars_append, hm']
  exact length_le_of_lowerChars (fronts hclause hclause') (hl ▸ cut?_first h hsmall)

theorem FoundAt.unique {l m r : List Char} (h : FoundAt conj clause left middle right) (h' : FoundAt conj clause l m r) :
    left = l := by
  have hle := h.first l m r h'.whole h'.words
  have hge := h'.first left middle right h.whole h.words
  exact (List.append_inj (fronts h.whole h'.whole) (by omega)).1

/-- the first occurrence is where the search in the small letters finds it -/
theorem FoundAt.cut?_eq (hconj : PlainWord conj) (h : FoundAt conj clause left middle right) :
    ∃ behind, cut? conj (lowerChars clause) = some (lowerChars left, behind) := by
  have hsome : (cut? conj (lowerChars clause)).isSome = true :=
    cut?_isSome_iff.2 ⟨lowerChars left, lowerChars right, by
      rw [h.whole, lowerChars_append, lowerChars_append, h.words]⟩
  obtain ⟨⟨before, behind⟩, hcut⟩ := Option.isSome_iff_exists.1 hsome
  obtain ⟨l, m, r, hfound, rfl⟩ := exists_foundAt hconj hcut
  exact ⟨behind, by rw [hcut, h.unique hfound]⟩

/-- **A cut is made where the conjunction was found** exactly if what stands before it is as long as its small letters.
-/
theorem CutAt.foundAt_iff (hconj : PlainWord conj) (h : CutAt conj clause left middle right) :
    FoundAt conj clause left middle right ↔ byteSize (lowerChars left) = byteSize left := by
  obtain ⟨before, behind, hcut, hplace⟩ := h.place
  constructor
  · intro hfound
    obtain ⟨behind', hcut'⟩ := hfound.cut?_eq hconj
    rw [hcut, Option.some.injEq, Prod.mk.injEq] at hcut'
    rw [hplace, hcut'.1]
  · intro hsize
    obtain ⟨l, m, r, hfound, hl⟩ := exists_foundAt hconj hcut
    -- both fronts of the small letters are of one size, hence the same, and so are the fronts of the clause
    have hbefore : before = lowerChars left := by
      have hsmall : before ++ (conj ++ behind) = lowerChars left ++ lowerChars (middle ++ right) := by
        rw [← lowerChars_append, ← List.append_assoc, ← List.append_assoc, ← cut?_eq_append hcut, ← h.whole]
      exact (append_inj_byteSize hsmall (by rw [hsize, hplace])).1
    have hclause := fronts hfound.whole h.whole
    have hle := length_le_of_lowerChars hclause (by rw [hl, hbefore])
    have hge := length_le_of_lowerChars hclause.symm (by rw [hl, hbefore])
    obtain ⟨rfl, hrest⟩ := List.append_inj hclause (by omega)
    obtain ⟨rfl, rfl⟩ := append_inj_byteSize hrest (by rw [byteSize_of_plain hconj.2 hfound.words, h.width])
    exact hfound

theorem FoundAt.cutAt (hconj : PlainWord conj) (h : FoundAt conj clause left middle right)
    (hfits : byteSize (lowerChars clause) = byteSize clause) (hleft : byteSize (lowerChars left) = byteSize left) :
    CutAt conj clause left middle right := by
  obtain ⟨behind, hcut⟩ := h.cut?_eq hconj
  exact ⟨h.whole, hfits, ⟨_, behind, hcut, hleft.symm⟩, byteSize_of_plain hconj.2 h.words⟩

end Found

/-! ## Pieces of a goal -/

/-- a text is made of pieces, in their order, with conjunctions and blanks between them -/
inductive Pieces : List Char → List (List Char) → Prop
  | nil : Pieces [] []
  | blank {c : Char} {t : List Char} {ps : List (List Char)} (hc : isBlank c = true) (h : Pieces t ps) :
      Pieces (c :: t) ps
  | conjunction {m t : List Char} {ps : List (List Char)} {conj : String} (hconj : conj ∈ conjunctions)
      (hm : lowerChars m = conj.toList) (h : Pieces t ps) : Pieces (m ++ t) ps
  | piece {p t : List Char} {ps : List (List Char)} (h : Pieces t ps) : Pieces (p ++ t) (p :: ps)

namespace Pieces

theorem single (p : List Char) : Pieces p [p] := by
  have h := piece (p := p) nil
  rwa [List.append_nil] at h

theorem append {s t : List Char} {ps qs : List (List Char)} (hs : Pieces s ps) (ht : Pieces t qs) :
    Pieces (s ++ t) (ps ++ qs) := by
  induction hs with
  | nil => exact ht
  | blank hc _ ih => exact .blank hc ih
  | conjunction hconj hm _ ih => rw [List.append_assoc]; exact .conjunction hconj hm ih
  | piece _ ih => rw [List.append_assoc, List.cons_append]; exact .piece ih

theorem blanks {t : List Char} (h : ∀ c ∈ t, isBlank c = true) : Pieces t [] := by
  induction t with
  | nil => exact .nil
  | cons c t ih => exact .blank (h c List.mem_cons_self) (ih fun d hd => h d (List.mem_cons_of_mem _ hd))

theorem refine {t : List Char} {ps : List (List Char)} {f : List Char → List (List Char)} (h : Pieces t ps)
    (hf : ∀ p ∈ ps, Pieces p (f p)) : Pieces t (ps.flatMap f) := by
  induction h with
  | nil => exact .nil
  | blank hc _ ih => exact .blank hc (ih hf)
  | conjunction hconj hm _ ih => exact .conjunction hconj hm (ih hf)
  | piece _ ih =>
    rw [List.flatMap_cons]
    exact (hf _ List.mem_cons_self).append (ih fun q hq => hf q (List.mem_cons_of_mem _ hq))

theorem side (t : List Char) : Pieces t (side t) := by
  obtain ⟨front, back, ht, hfront, hback⟩ := trimChars_split t
  have hmiddle : Pieces (trimChars t) (Plan.side t) := by
    rw [Plan.side]
    cases htrim : trimChars t with
    | nil => exact .nil
    | cons c r => exact .single (c :: r)
  have h := ((blanks hfront).append hmiddle).append (blanks hback)
  rwa [List.nil_append, List.append_nil, ← ht] at h

end Pieces

theorem FoundAt.pieces {conj : String} (hconj : conj ∈ conjunctions) {clause left middle right : List Char}
    (h : FoundAt conj.toList clause left middle right) : Pieces clause (side left ++ side right) := by
  have hright : Pieces (middle ++ right) (side right) := .conjunction hconj h.words (.side right)
  have hall := (Pieces.side left).append hright
  rwa [← List.append_assoc, ← h.whole] at hall

/-! ## Taking a goal apart -/

/-- the clauses of a text after the conjunctions that were tried -/
def passes (tried : List String) (text : List Char) : Option (List (List Char)) :=
  tried.foldlM (fun parts c => cutEach parts c.toList) [text]

theorem clauses?_eq_passes (text : List Char) : clauses? text = passes conjunctions text := rfl

theorem passes_snoc (tried : List String) (conj : String) (text : List Char) :
    passes (tried ++ [conj]) text = (passes tried text).bind fun parts => cutEach parts conj.toList := by
  simp only [passes, List.foldlM_append, List.foldlM_cons, List.foldlM_nil, bind_pure, Option.bind_eq_bind]

theorem cutEach_eq_some {parts next : List (List Char)} {conj : List Char} :
    cutEach parts conj = some next ↔
      (∀ p ∈ parts, (cutOnce conj p).isSome = true) ∧ next = parts.flatMap fun p => (cutOnce conj p).getD [] := by
  induction parts generalizing next with
  | nil =>
    have hnil : cutEach [] conj = some [] := rfl
    simp only [hnil, Option.some.injEq, List.not_mem_nil, false_implies, implies_true, true_and, List.flatMap_nil]
    exact eq_comm
  | cons p parts ih =>
    have hcons : cutEach (p :: parts) conj = (cutOnce conj p).bind fun qs => (cutEach parts conj).map (qs ++ ·) := by
      simp only [cutEach, List.mapM_cons, Option.bind_eq_bind, Option.pure_def]
      cases cutOnce conj p with
      | none => rfl
      | some qs => cases parts.mapM (cutOnce conj) <;> rfl
    rw [hcons]
    cases hp : cutOnce conj p with
    | none => simp [hp]
    | some qs =>
      simp only [Option.bind_some, Option.map_eq_some_iff, ih, List.forall_mem_cons, hp, Option.isSome_some, true_and,
        List.flatMap_cons, Option.getD_some]
      constructor
      · rintro ⟨rest, ⟨hall, rfl⟩, rfl⟩
        exact ⟨hall, rfl⟩
      · rintro ⟨hall, rfl⟩
        exact ⟨_, ⟨hall, rfl⟩, rfl⟩

/-- the clause is looked through for the conjunction while the goal is taken apart -/
def Meets (goal conj : String) (clause : List Char) : Prop :=
  (explicitItems goal.toList).length < 2 ∧
    ∃ tried later parts, conjunctions = tried ++ conj :: later ∧ passes tried goal.toList = some parts ∧ clause ∈ parts

theorem Meets.mem {goal conj : String} {clause : List Char} (h : Meets goal conj clause) : conj ∈ conjunctions := by
  obtain ⟨-, tried, later, -, hsplit, -⟩ := h
  rw [hsplit]
  exact List.mem_append_right _ List.mem_cons_self

theorem mem_side {q t : List Char} : q ∈ side t ↔ q = trimChars t ∧ q ≠ [] := by
  rw [side, List.mem_filter, List.mem_singleton, Bool.not_eq_true', List.isEmpty_eq_false_iff]

theorem side_of_mem {p t : List Char} (h : p ∈ side t) : side p = [p] := by
  obtain ⟨rfl, hne⟩ := mem_side.1 h
  rw [side, trimChars_idem]
  exact List.filter_cons_of_pos (by simpa using hne)

theorem flatMap_side (parts : List (List Char)) :
    parts.flatMap side = (parts.map trimChars).filter fun p => !p.isEmpty := by
  induction parts with
  | nil => rfl
  | cons p parts ih => rw [List.flatMap_cons, ih, List.map_cons, side, ← List.filter_append]; rfl

/-- what a clause is cut into stands in the clause, in one piece -/
theorem cutOnce_within {conj clause q : List Char} (h : q ∈ (cutOnce conj clause).getD []) : q <:+: clause := by
  have hcuts := cutOnce_cuts conj clause
  generalize cutOnce conj clause = result at h hcuts
  cases hcuts with
  | whole => rw [List.mem_singleton.1 h]
  | made hcut =>
    rw [hcut.whole]
    rcases List.mem_append.1 h with h | h <;> rw [(mem_side.1 h).1]
    · rw [List.append_assoc]
      exact (trimChars_within _).trans (List.prefix_append _ _).isInfix
    · exact (trimChars_within _).trans (List.suffix_append _ _).isInfix
  | inside => cases h

theorem passes_subset {tried : List String} {text : List Char} {parts : List (List Char)}
    (h : passes tried text = some parts) : ∀ p ∈ parts, p ⊆ text := by
  induction tried using List.reverseRecOn generalizing parts with
  | nil =>
    obtain rfl : [text] = parts := by simpa [passes] using h
    simp
  | append_singleton tried conj ih =>
    rw [passes_snoc] at h
    obtain ⟨before, hbefore, hcut⟩ := Option.bind_eq_some_iff.1 h
    obtain ⟨-, rfl⟩ := cutEach_eq_some.1 hcut
    intro q hq
    obtain ⟨p, hp, hq⟩ := List.mem_flatMap.1 hq
    exact List.Subset.trans (cutOnce_within hq).subset (ih hbefore p hp)

/-- a clause stays whole, or what it is cut into has no outer blanks and is not empty -/
theorem cutOnce_trimmed (conj clause : List Char) :
    (cutOnce conj clause).getD [] = [clause] ∨ ∀ q ∈ (cutOnce conj clause).getD [], side q = [q] := by
  have hcuts := cutOnce_cuts conj clause
  generalize cutOnce conj clause = result at hcuts
  cases hcuts with
  | whole => exact Or.inl rfl
  | made => exact Or.inr fun q hq => (List.mem_append.1 hq).elim side_of_mem side_of_mem
  | inside => exact Or.inr fun q hq => by cases hq

theorem passes_trimmed {tried : List String} {text : List Char} {parts : List (List Char)}
    (h : passes tried text = some parts) : parts = [text] ∨ ∀ p ∈ parts, side p = [p] := by
  induction tried using List.reverseRecOn generalizing parts with
  | nil => exact Or.inl (by simpa [passes, eq_comm] using h)
  | append_singleton tried conj ih =>
    rw [passes_snoc] at h
    obtain ⟨before, hbefore, hcut⟩ := Option.bind_eq_some_iff.1 h
    obtain ⟨-, rfl⟩ := cutEach_eq_some.1 hcut
    rcases ih hbefore with rfl | htrimmed
    · rw [List.flatMap_singleton]
      exact cutOnce_trimmed conj.toList text
    · refine Or.inr fun q hq => ?_
      obtain ⟨p, hp, hq⟩ := List.mem_flatMap.1 hq
      rcases cutOnce_trimmed conj.toList p with hwhole | hall
      · rw [hwhole, List.mem_singleton] at hq
        rw [hq]
        exact htrimmed p hp
      · exact hall q hq

/-- **The clauses of a goal that has several** have no outer blanks and are not empty. -/
theorem clauses?_trimmed {text : List Char} {parts : List (List Char)} (h : clauses? text = some parts)
    (htwo : 2 ≤ parts.length) : ∀ p ∈ parts, side p = [p] := by
  rcases passes_trimmed (clauses?_eq_passes text ▸ h) with rfl | htrimmed
  · cases Nat.not_succ_le_self 1 htwo
  · exact htrimmed

/-! ## Steady goals -/

/-- wherever a conjunction is found in a clause of the goal whose small letters are of its size, what stands before it is
of the size of its small letters too -/
def Steady (goal : String) : Prop :=
  ∀ conj clause left middle right, Meets goal conj clause → FoundAt conj.toList clause left middle right →
    byteSize (lowerChars clause) = byteSize clause → byteSize (lowerChars left) = byteSize left

theorem steady_of_oneWay {goal : String} (h : OneWay goal.toList) : Steady goal := by
  intro conj clause left middle right hmeets hfound hfits
  obtain ⟨-, tried, later, parts, -, hpasses, hclause⟩ := hmeets
  have hone : OneWay clause := h.subset (passes_subset hpasses clause hclause)
  rw [hfound.whole, List.append_assoc] at hone hfits
  exact hone.front hfits

section Goal

variable {goal conj : String} {clause left middle right : List Char}

theorem Steady.foundAt (h : Steady goal) (hmeets : Meets goal conj clause)
    (hcut : CutAt conj.toList clause left middle right) : FoundAt conj.toList clause left middle right := by
  have hconj := plainWord_of_mem hmeets.mem
  obtain ⟨before, behind, hfound, hplace⟩ := hcut.place
  obtain ⟨l, m, r, hl, hbefore⟩ := exists_foundAt hconj hfound
  have hsize := h conj clause l m r hmeets hl hcut.fits
  -- what stands before the conjunction is of the size of what stands before the cut
  have hfront : byteSize l = byteSize left :=
    calc byteSize l = byteSize (lowerChars l) := hsize.symm
      _ = byteSize before := by rw [hbefore]
      _ = byteSize left := hplace.symm
  obtain ⟨rfl, -⟩ := append_inj_byteSize (fronts hl.whole hcut.whole) hfront
  exact (hcut.foundAt_iff hconj).2 hsize

/-- no cut of a steady goal falls inside a character, and what a clause is cut into makes it up -/
theorem Steady.cutOnce (h : Steady goal) (hmeets : Meets goal conj clause) :
    (cutOnce conj.toList clause).isSome = true ∧ Pieces clause ((cutOnce conj.toList clause).getD []) := by
  have hcuts := cutOnce_cuts conj.toList clause
  generalize Plan.cutOnce conj.toList clause = result at hcuts
  cases hcuts with
  | whole => exact ⟨rfl, .single clause⟩
  | made hcut => exact ⟨rfl, (h.foundAt hmeets hcut).pieces hmeets.mem⟩
  | inside hfound hfits hnone =>
    have hconj := plainWord_of_mem hmeets.mem
    obtain ⟨⟨before, behind⟩, hcut⟩ := Option.isSome_iff_exists.1 hfound
    obtain ⟨l, m, r, hl, -⟩ := exists_foundAt hconj hcut
    exact absurd (hl.cutAt hconj hfits (h conj clause l m r hmeets hl hfits)) (hnone l m r)

end Goal

/-- **A steady goal is taken apart into pieces that make it up.** -/
theorem passes_pieces {goal : String} (h : Steady goal) (hfew : (explicitItems goal.toList).length < 2)
    {tried later : List String} (hsplit : conjunctions = tried ++ later) :
    ∃ parts, passes tried goal.toList = some parts ∧ Pieces goal.toList parts := by
  induction tried using List.reverseRecOn generalizing later with
  | nil => exact ⟨[goal.toList], rfl, .single _⟩
  | append_singleton tried conj ih =>
    rw [List.append_assoc, List.singleton_append] at hsplit
    obtain ⟨parts, hpasses, hparts⟩ := ih hsplit
    have hmeets : ∀ p ∈ parts, Meets goal conj p := fun p hp => ⟨hfew, tried, later, parts, hsplit, hpasses, hp⟩
    refine ⟨parts.flatMap fun p => (cutOnce conj.toList p).getD [], ?_, hparts.refine fun p hp => ?_⟩
    · rw [passes_snoc, hpasses, Option.bind_some, cutEach_eq_some]
      exact ⟨fun p hp => (h.cutOnce (hmeets p hp)).1, rfl⟩
    · exact (h.cutOnce (hmeets p hp)).2

theorem cutOnce_isSome {goal conj : String} {clause : List Char} (hmeets : Meets goal conj clause)
    (h : (clauses? goal.toList).isSome = true) : (cutOnce conj.toList clause).isSome = true := by
  obtain ⟨-, tried, later, parts, hsplit, hpasses, hclause⟩ := hmeets
  rw [clauses?_eq_passes, hsplit, passes, List.foldlM_append, ← passes, hpasses] at h
  simp only [List.foldlM_cons, Option.bind_eq_bind, Option.bind_some] at h
  cases hcut : cutEach parts conj.toList with
  | none => rw [hcut] at h; cases h
  | some next => exact (cutEach_eq_some.1 hcut).1 clause hclause

/-! ## What becomes of a goal -/

/-- todos keep the text of a goal: they are the pieces that it is made of, or they are the three of a single task -/
inductive Kept (goal : String) : List Todo → Prop
  | apart {parts : List (List Char)} {todos : List Todo} (h : Pieces goal.toList parts)
      (hd : todos.map (·.description) = parts.map fun p => String.ofList (capitalizeChars p)) : Kept goal todos
  | single (next : Nat) : Kept goal (chain next (capitalizeChars (trimChars goal.toList)))

theorem ofClauses_descriptions (next : Nat) (parts : List (List Char)) :
    (ofClauses next parts).map (·.description) =
      (parts.flatMap side).map fun p => String.ofList (capitalizeChars p) := by
  rw [flatMap_side, ofClauses]
  generalize ((parts.map trimChars).filter fun c => !c.isEmpty) = cs
  refine List.ext_getElem (by simp) fun i _ _ => ?_
  simp [Todo.fresh]

theorem Steady.kept {goal : String} (h : Steady goal) (hfew : (explicitItems goal.toList).length < 2) (next : Nat) :
    ∃ todos, ofGoal next goal = some todos ∧ Kept goal todos := by
  obtain ⟨parts, hpasses, hparts⟩ := passes_pieces h hfew (List.append_nil conjunctions).symm
  have hmarked : ¬2 ≤ (explicitItems goal.toList).length := by omega
  simp only [ofGoal, if_neg hmarked, clauses?_eq_passes, hpasses, Option.map_some]
  refine ⟨_, rfl, ?_⟩
  split_ifs with htwo hblank
  · exact .apart (hparts.refine fun p _ => .side p) (ofClauses_descriptions next parts)
  · have hnone : trimChars goal.toList = [] := capitalizeChars_eq_nil.1 (List.isEmpty_iff.1 hblank)
    have hpieces := Pieces.side goal.toList
    rw [side, hnone] at hpieces
    exact .apart hpieces rfl
  · exact .single next

theorem Steady.plan {goal : String} (h : Steady goal) (next : Nat) : (ofGoal next goal).isSome = true := by
  by_cases hfew : (explicitItems goal.toList).length < 2
  · obtain ⟨todos, htodos, -⟩ := h.kept hfew next
    rw [htodos]
    rfl
  · rw [ofGoal, if_pos (by omega)]
    rfl

theorem steady_of_cuts {goal : String} {next : Nat} (hplan : (ofGoal next goal).isSome = true)
    (hcuts : ∀ conj clause left middle right, Meets goal conj clause → CutAt conj.toList clause left middle right →
      FoundAt conj.toList clause left middle right) : Steady goal := by
  intro conj clause left middle right hmeets hfound hfits
  have hconj := plainWord_of_mem hmeets.mem
  have hfew := hmeets.1
  have hclauses : (clauses? goal.toList).isSome = true := by
    rwa [ofGoal, if_neg (by omega), Option.isSome_map] at hplan
  have hsome := cutOnce_isSome hmeets hclauses
  have hmade := cutOnce_cuts conj.toList clause
  generalize cutOnce conj.toList clause = result at hsome hmade
  -- the conjunction is found and the sizes fit, so the clause is cut, and that is where the conjunction is
  cases hmade with
  | whole h =>
    obtain ⟨behind, hcut⟩ := hfound.cut?_eq hconj
    rcases h with h | h
    · rw [hcut] at h
      cases h
    · exact absurd hfits h
  | made hcut =>
    have hthere := hcuts conj clause _ _ _ hmeets hcut
    rw [hfound.unique hthere]
    exact (hcut.foundAt_iff hconj).1 hthere
  | inside => cases hsome

/-- where a goal is cut, and what becomes of it -/
structure CutsAsFound (goal : String) : Prop where
  /-- a clause is cut by numbers of bytes, or stays whole, or cannot be cut -/
  clauses : ∀ conj clause, Cuts conj clause (cutOnce conj clause)
  /-- there is a plan and every clause is cut where the conjunction was found, exactly if the goal is steady -/
  cuts_iff : ((∀ next, (ofGoal next goal).isSome = true) ∧
      ∀ conj clause left middle right, Meets goal conj clause → CutAt conj.toList clause left middle right →
        FoundAt conj.toList clause left middle right) ↔ Steady goal
  /-- the todos of a steady goal that is no explicit list keep its text -/
  kept : Steady goal → (explicitItems goal.toList).length < 2 → ∀ next, ∃ todos, ofGoal next goal = some todos ∧
    Kept goal todos
  /-- a goal is steady if its letters change their size in one direction only -/
  oneWay : OneWay goal.toList → Steady goal

/-- **A goal is cut where its conjunctions are**, and nothing but conjunctions and blanks is lost from it, if it is
steady. -/
theorem goal_cuts (goal : String) : CutsAsFound goal where
  clauses := cutOnce_cuts
  cuts_iff := by
    constructor
    · rintro ⟨hplan, hcuts⟩
      exact steady_of_cuts (hplan 0) hcuts
    · intro h
      exact ⟨h.plan, fun conj clause left middle right hmeets hcut => h.foundAt hmeets hcut⟩
  kept := Steady.kept
  oneWay := steady_of_oneWay

/-- the cut falls inside a character; and where it does not, a letter is left out with the conjunction -/
theorem cut_beside :
    ofGoal 0 "Ⱥ and ẞ" = none ∧
      CutAt " and ".toList "Ⱥ and bẞ".toList "Ⱥ ".toList "and b".toList "ẞ".toList ∧
      clauses? "Ⱥ and bẞ".toList = some ["Ⱥ".toList, "ẞ".toList] := by
  refine ⟨by decide +kernel, ⟨by decide +kernel, by decide +kernel, ?_, by decide +kernel⟩, by decide +kernel⟩
  exact ⟨"ⱥ".toList, "bß".toList, by decide +kernel, by decide +kernel⟩

end Foreman.Plan

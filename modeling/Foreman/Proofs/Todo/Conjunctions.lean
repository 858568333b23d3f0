/-
Which conjunctions are left in the todos that are made of a goal.

A clause is cut at a conjunction in the turn of that conjunction, once, where it stands there first. What stands before the
cut does not hold it any more. What stands behind is looked through for the later conjunctions, but not for this one again,
so that a goal that names its tasks with one conjunction becomes two clauses, however many tasks it names.

In ASCII every conjunction that is found is cut at, and in the right place, so that what is left can be told (`apart`).

Results:
- `cutOnce_cases`:      what becomes of a clause in ASCII.
- `clauses?_eq_apart`:  what becomes of a goal in ASCII.
- `holds_apart_iff`:    where a conjunction is left.
- `conjunctions_left`:  the whole.
- `cut_once_only`:      a goal that names three tasks and becomes two todos.
-/
import Foreman.Proofs.Todo.Cuts

namespace Foreman.Plan

open Text

/-- a conjunction occurs in a text, in any letter case -/
def holds (conj : String) (t : List Char) : Bool := occurs conj.toList (lowerChars t)

/-- what is left of a clause after the turn of a conjunction -/
def cut (conj : String) (clause : List Char) : List (List Char) := (cutOnce conj.toList clause).getD []

/-- what is left of a text after the turns of some conjunctions -/
def apart : List String → List Char → List (List Char)
  | [], t => [t]
  | conj :: later, t => (cut conj t).flatMap (apart later)

/-! ## What a text holds -/

variable {conj : String} {tried later : List String} {t q clause left middle right : List Char}

theorem holds_of_split {l m r : List Char} (hm : lowerChars m = conj.toList) : holds conj (l ++ m ++ r) = true :=
  cut?_isSome_iff.2 ⟨lowerChars l, lowerChars r, by rw [lowerChars_append, lowerChars_append, hm]⟩

theorem holds_iff (hconj : conj ∈ conjunctions) :
    holds conj t = true ↔ ∃ l m r, t = l ++ m ++ r ∧ lowerChars m = conj.toList := by
  constructor
  · intro h
    obtain ⟨a, b, hab⟩ := cut?_isSome_iff.1 h
    obtain ⟨hne, hplain⟩ := plainWord_of_mem hconj
    obtain ⟨l, m, r, ht, -, hm, -⟩ := lowerChars_eq_append hplain hne hab
    exact ⟨l, m, r, ht, hm⟩
  · rintro ⟨l, m, r, rfl, hm⟩
    exact holds_of_split hm

theorem holds_nil (hconj : conj ∈ conjunctions) : holds conj [] = false := by
  have hall : ∀ conj ∈ conjunctions, holds conj [] = false := by decide
  exact hall conj hconj

theorem holds_of_within (hq : q <:+: t) (h : holds conj q = true) : holds conj t = true := by
  obtain ⟨front, back, rfl⟩ := hq
  obtain ⟨a, b, hab⟩ := cut?_isSome_iff.1 h
  refine cut?_isSome_iff.2 ⟨lowerChars front ++ a, b ++ lowerChars back, ?_⟩
  simp only [lowerChars_append, hab, List.append_assoc]

theorem holds_of_word {word : String} (hword : word.toList <:+: conj.toList) (h : holds conj t = true) :
    holds word t = true := by
  obtain ⟨front, back, hconj⟩ := hword
  obtain ⟨a, b, hab⟩ := cut?_isSome_iff.1 h
  refine cut?_isSome_iff.2 ⟨a ++ front, back ++ b, ?_⟩
  rw [hab, ← hconj]
  simp only [List.append_assoc]

/-- a conjunction is made of one of the two short ones -/
theorem short_of_mem (hconj : conj ∈ conjunctions) (h : holds conj t = true) :
    holds " then " t = true ∨ holds " and " t = true := by
  have hall : ∀ conj ∈ conjunctions,
      " then ".toList <:+: conj.toList ∨ " and ".toList <:+: conj.toList := by decide
  exact (hall conj hconj).imp (fun hword => holds_of_word hword h) fun hword => holds_of_word hword h

theorem exists_foundAt_of_holds (hconj : conj ∈ conjunctions) (h : holds conj t = true) :
    ∃ l m r, FoundAt conj.toList t l m r := by
  obtain ⟨⟨before, behind⟩, hcut⟩ := Option.isSome_iff_exists.1 h
  obtain ⟨l, m, r, hfound, -⟩ := exists_foundAt (plainWord_of_mem hconj) hcut
  exact ⟨l, m, r, hfound⟩

theorem FoundAt.left_not_holds (hconj : conj ∈ conjunctions) (h : FoundAt conj.toList clause left middle right) :
    holds conj left = false := by
  rw [← Bool.not_eq_true, holds_iff hconj]
  rintro ⟨l, m, r, hleft, hm⟩
  have hfirst := h.first l m (r ++ middle ++ right) (by rw [h.whole, hleft]; simp only [List.append_assoc]) hm
  have hne : m ≠ [] := by
    rintro rfl
    exact (plainWord_of_mem hconj).1 hm.symm
  have hpos := List.length_pos_iff.2 hne
  rw [hleft] at hfirst
  simp only [List.length_append] at hfirst
  omega

/-! ## What becomes of a clause -/

/-- a clause is cut where a conjunction was found, if its small letters fit -/
theorem FoundAt.cutOnce_eq (hconj : conj ∈ conjunctions) (h : FoundAt conj.toList clause left middle right)
    (hfits : byteSize (lowerChars clause) = byteSize clause) (hleft : byteSize (lowerChars left) = byteSize left) :
    cutOnce conj.toList clause = some (side left ++ side right) := by
  have hword := plainWord_of_mem hconj
  obtain ⟨before, behind, hcut, hplace⟩ := (h.cutAt hword hfits hleft).place
  have hcuts := cutOnce_cuts conj.toList clause
  generalize cutOnce conj.toList clause = result at hcuts
  cases hcuts with
  | whole hwhole =>
    rcases hwhole with hnone | hsize
    · rw [hcut] at hnone
      cases hnone
    · exact absurd hfits hsize
  | made hmade =>
    obtain ⟨before', behind', hcut', hplace'⟩ := hmade.place
    rw [hcut, Option.some.injEq, Prod.mk.injEq] at hcut'
    obtain ⟨rfl, hrest⟩ := append_inj_byteSize (fronts h.whole hmade.whole) (by rw [hplace, hplace', hcut'.1])
    obtain ⟨-, rfl⟩ := append_inj_byteSize hrest (by rw [byteSize_of_plain hword.2 h.words, hmade.width])
    rfl
  | inside _ _ hnone => exact absurd (h.cutAt hword hfits hleft) (hnone _ _ _)

/-- **A clause in ASCII** stays whole if it does not hold the conjunction, and else is cut where it was found. -/
theorem cutOnce_cases (hconj : conj ∈ conjunctions) (h : Ascii t) :
    holds conj t = false ∧ cutOnce conj.toList t = some [t] ∨
      ∃ l m r, FoundAt conj.toList t l m r ∧ cutOnce conj.toList t = some (side l ++ side r) := by
  cases hholds : holds conj t with
  | false =>
    have hnone : cut? conj.toList (lowerChars t) = none := Option.isNone_iff_eq_none.1 (Option.isSome_eq_false_iff.1 hholds)
    exact Or.inl ⟨rfl, by simp only [cutOnce, hnone]⟩
  | true =>
    obtain ⟨l, m, r, hfound⟩ := exists_foundAt_of_holds hconj hholds
    have hl : Ascii l := h.subset fun c hc => by
      rw [hfound.whole]
      exact List.mem_append_left _ (List.mem_append_left _ hc)
    exact Or.inr ⟨l, m, r, hfound, hfound.cutOnce_eq hconj h.fits hl.fits⟩

theorem cut_of_not_holds (hconj : conj ∈ conjunctions) (h : Ascii t) (hnot : holds conj t = false) : cut conj t = [t] := by
  rcases cutOnce_cases hconj h with ⟨-, hcut⟩ | ⟨l, m, r, hfound, -⟩
  · rw [cut, hcut, Option.getD_some]
  · rw [hfound.whole, holds_of_split hfound.words] at hnot
    cases hnot

theorem FoundAt.cut_eq (hconj : conj ∈ conjunctions) (hascii : Ascii clause)
    (h : FoundAt conj.toList clause left middle right) : cut conj clause = side left ++ side right := by
  have hleft : Ascii left := hascii.subset fun c hc => by
    rw [h.whole]
    exact List.mem_append_left _ (List.mem_append_left _ hc)
  rw [cut, h.cutOnce_eq hconj hascii.fits hleft.fits, Option.getD_some]

theorem side_length_le (t : List Char) : (side t).length ≤ 1 := List.length_filter_le _ _

theorem cut_length_le (hconj : conj ∈ conjunctions) (h : Ascii t) : (cut conj t).length ≤ 2 := by
  rcases cutOnce_cases hconj h with ⟨-, hcut⟩ | ⟨l, m, r, -, hcut⟩ <;> rw [cut, hcut, Option.getD_some]
  · exact Nat.le_succ 1
  · rw [List.length_append]
    exact Nat.add_le_add (side_length_le l) (side_length_le r)

/-! ## What becomes of a text -/

theorem apart_append (tried later : List String) (t : List Char) :
    apart (tried ++ later) t = (apart tried t).flatMap (apart later) := by
  induction tried generalizing t with
  | nil => exact (List.flatMap_singleton (apart later) t).symm
  | cons conj tried ih =>
    rw [List.cons_append, apart, apart, List.flatMap_assoc]
    exact List.flatMap_congr fun p _ => ih p

/-- what a text is taken apart into stands in the text, in one piece -/
theorem apart_within (h : q ∈ apart tried t) : q <:+: t := by
  induction tried generalizing t with
  | nil => rw [List.mem_singleton.1 h]
  | cons conj tried ih =>
    obtain ⟨p, hp, hq⟩ := List.mem_flatMap.1 h
    exact (ih hq).trans (cutOnce_within hp)

theorem ascii_of_mem_apart (h : Ascii t) (hq : q ∈ apart tried t) : Ascii q := h.subset (apart_within hq).subset

/-- a list of clauses in ASCII is taken apart clause by clause -/
theorem foldlM_eq_apart {parts : List (List Char)} (htried : tried ⊆ conjunctions) (h : ∀ p ∈ parts, Ascii p) :
    tried.foldlM (fun parts c => cutEach parts c.toList) parts = some (parts.flatMap (apart tried)) := by
  induction tried generalizing parts with
  | nil => simp [apart]
  | cons conj later ih =>
    obtain ⟨hconj, hlater⟩ := List.cons_subset.1 htried
    have hcut : cutEach parts conj.toList = some (parts.flatMap (cut conj)) := by
      refine cutEach_eq_some.2 ⟨fun p hp => ?_, rfl⟩
      rcases cutOnce_cases hconj (h p hp) with ⟨-, hcut⟩ | ⟨l, m, r, -, hcut⟩ <;> rw [hcut] <;> rfl
    have hnext : ∀ q ∈ parts.flatMap (cut conj), Ascii q := by
      intro q hq
      obtain ⟨p, hp, hq⟩ := List.mem_flatMap.1 hq
      exact (h p hp).subset (cutOnce_within hq).subset
    rw [List.foldlM_cons, hcut, Option.bind_eq_bind, Option.bind_some, ih hlater hnext, List.flatMap_assoc]
    rfl

/-- **What becomes of a goal in ASCII.** -/
theorem clauses?_eq_apart (h : Ascii t) : clauses? t = some (apart conjunctions t) := by
  rw [clauses?, foldlM_eq_apart (List.Subset.refl _) (by simpa using h), List.flatMap_singleton]

theorem apart_length_le (htried : tried ⊆ conjunctions) (h : Ascii t) : (apart tried t).length ≤ 2 ^ tried.length := by
  induction tried generalizing t with
  | nil => exact Nat.le_refl 1
  | cons conj later ih =>
    obtain ⟨hconj, hlater⟩ := List.cons_subset.1 htried
    rw [apart, List.length_flatMap]
    calc ((cut conj t).map fun p => (apart later p).length).sum ≤ (cut conj t).length * 2 ^ later.length := by
          refine (List.sum_le_card_nsmul _ (2 ^ later.length) fun n hn => ?_).trans_eq (by simp)
          obtain ⟨p, hp, rfl⟩ := List.mem_map.1 hn
          exact ih hlater (h.subset (cutOnce_within hp).subset)
      _ ≤ 2 * 2 ^ later.length := Nat.mul_le_mul_right _ (cut_length_le hconj h)
      _ = 2 ^ (conj :: later).length := (Nat.pow_succ').symm

/-! ## What is left -/

/-- a clause holds a conjunction again behind the place where it is cut, and what stands there still does after the turns of
the later ones -/
def Again (conj : String) (later : List String) (clause : List Char) : Prop :=
  ∃ left middle right, FoundAt conj.toList clause left middle right ∧
    ∃ q ∈ apart later (trimChars right), holds conj q = true

/-- **A conjunction is left** exactly if a clause, in its turn, held it again behind the place where it was cut. -/
theorem holds_apart_iff (hconj : conj ∈ conjunctions) (h : Ascii t) :
    (∃ q ∈ apart (tried ++ conj :: later) t, holds conj q = true) ↔
      ∃ clause ∈ apart tried t, Again conj later clause := by
  rw [apart_append]
  constructor
  · rintro ⟨q, hq, hholds⟩
    obtain ⟨clause, hclause, hq⟩ := List.mem_flatMap.1 hq
    obtain ⟨p, hp, hq⟩ := List.mem_flatMap.1 hq
    have hpholds := holds_of_within (apart_within hq) hholds
    refine ⟨clause, hclause, ?_⟩
    have hascii := ascii_of_mem_apart h hclause
    rcases cutOnce_cases hconj hascii with ⟨hnot, -⟩ | ⟨l, m, r, hfound, -⟩
    · rw [cut_of_not_holds hconj hascii hnot, List.mem_singleton] at hp
      rw [hp, hnot] at hpholds
      cases hpholds
    · rw [hfound.cut_eq hconj hascii, List.mem_append, mem_side, mem_side] at hp
      rcases hp with ⟨rfl, -⟩ | ⟨rfl, -⟩
      · have hl := holds_of_within (trimChars_within l) hpholds
        rw [hfound.left_not_holds hconj] at hl
        cases hl
      · exact ⟨l, m, r, hfound, q, hq, hholds⟩
  · rintro ⟨clause, hclause, l, m, r, hfound, q, hq, hholds⟩
    refine ⟨q, List.mem_flatMap.2 ⟨clause, hclause, List.mem_flatMap.2 ⟨trimChars r, ?_, hq⟩⟩, hholds⟩
    rw [hfound.cut_eq hconj (ascii_of_mem_apart h hclause)]
    refine List.mem_append_right _ (mem_side.2 ⟨rfl, fun hnil => ?_⟩)
    rw [hnil] at hq
    rw [List.infix_nil.1 (apart_within hq), holds_nil hconj] at hholds
    cases hholds

/-- a text holds a conjunction in two places apart -/
def Twice (conj : String) (t : List Char) : Prop :=
  ∃ a m b m' c, t = a ++ m ++ b ++ m' ++ c ∧ lowerChars m = conj.toList ∧ lowerChars m' = conj.toList

theorem Again.twice (hconj : conj ∈ conjunctions) (h : Again conj later clause) (hclause : clause <:+: t) :
    Twice conj t := by
  obtain ⟨l, m, r, hfound, q, hq, hholds⟩ := h
  obtain ⟨b, m', c, hr, hm'⟩ := (holds_iff hconj).1
    (holds_of_within ((apart_within hq).trans (trimChars_within r)) hholds)
  obtain ⟨front, back, rfl⟩ := hclause
  refine ⟨front ++ l, m, b, m', c ++ back, ?_, hfound.words, hm'⟩
  rw [hfound.whole, hr]
  simp only [List.append_assoc]

theorem apart_of_no_then (h : Ascii t) (hnot : holds " then " t = false) : apart conjunctions t = cut " and " t := by
  have hskip : ∀ conj ∈ [", then ", " and then ", " then "], cut conj t = [t] := by
    intro conj hmem
    have hall : ∀ conj ∈ [", then ", " and then ", " then "],
        conj ∈ conjunctions ∧ " then ".toList <:+: conj.toList := by decide
    obtain ⟨hconj, hword⟩ := hall conj hmem
    refine cut_of_not_holds hconj h ?_
    rw [← Bool.not_eq_true] at hnot ⊢
    exact fun hholds => hnot (holds_of_word hword hholds)
  rw [conjunctions, apart, hskip _ (by simp), List.flatMap_singleton, apart, hskip _ (by simp), List.flatMap_singleton,
    apart, hskip _ (by simp), List.flatMap_singleton, apart]
  exact List.flatMap_singleton' _

/-! ## The todos of a goal -/

/-- a todo for each clause, worded as the clause is, its first letter raised -/
def Worded (parts : List (List Char)) (todos : List Todo) : Prop :=
  todos.map (·.description) = parts.map fun p => String.ofList (capitalizeChars p)

theorem Worded.holds_iff {parts : List (List Char)} {todos : List Todo} (h : Worded parts todos)
    (hascii : ∀ p ∈ parts, Ascii p) :
    (∃ todo ∈ todos, holds conj todo.description.toList = true) ↔ ∃ p ∈ parts, holds conj p = true := by
  have hsame : ∀ p ∈ parts, holds conj (String.ofList (capitalizeChars p)).toList = holds conj p := by
    intro p hp
    rw [String.toList_ofList, holds, (hascii p hp).lowerChars_capitalize, holds]
  calc (∃ todo ∈ todos, holds conj todo.description.toList = true)
      ↔ ∃ d ∈ todos.map (·.description), holds conj d.toList = true := by simp
    _ ↔ ∃ p ∈ parts, holds conj (String.ofList (capitalizeChars p)).toList = true := by rw [h]; simp
    _ ↔ ∃ p ∈ parts, holds conj p = true :=
      exists_congr fun p => and_congr_right fun hp => by rw [hsame p hp]

theorem ofGoal_worded {goal : String} (hascii : Ascii goal.toList) (hfew : (explicitItems goal.toList).length < 2)
    (htwo : 2 ≤ (apart conjunctions goal.toList).length) (next : Nat) :
    ∃ todos, ofGoal next goal = some todos ∧ Worded (apart conjunctions goal.toList) todos := by
  refine ⟨ofClauses next (apart conjunctions goal.toList), ?_, ?_⟩
  · simp only [ofGoal, if_neg (Nat.not_le.2 hfew), clauses?_eq_apart hascii, Option.map_some, if_pos htwo]
  · have htrimmed := clauses?_trimmed (clauses?_eq_apart hascii) htwo
    have hsides : (apart conjunctions goal.toList).flatMap side = apart conjunctions goal.toList :=
      (List.flatMap_congr htrimmed).trans (List.flatMap_singleton' _)
    rw [Worded, ofClauses_descriptions, hsides]

/-- which conjunctions are left in the todos that are made of the clauses of a goal -/
structure Left (goal : String) (todos : List Todo) : Prop where
  /-- a todo holds a conjunction exactly if a clause, in its turn, held it again behind the place where it was cut -/
  left_iff : ∀ tried conj later, conjunctions = tried ++ conj :: later →
    ((∃ todo ∈ todos, holds conj todo.description.toList = true) ↔
      ∃ clause ∈ apart tried goal.toList, Again conj later clause)
  /-- nothing is left exactly if no clause held one of the short conjunctions again -/
  complete_iff : (∀ todo ∈ todos, ∀ conj ∈ conjunctions, holds conj todo.description.toList = false) ↔
    (∀ clause ∈ apart [", then ", " and then "] goal.toList, ¬Again " then " [" and "] clause) ∧
      ∀ clause ∈ apart [", then ", " and then ", " then "] goal.toList, ¬Again " and " [] clause
  /-- nothing is left of a goal that holds each of the short conjunctions in one place at most -/
  once : ¬Twice " then " goal.toList → ¬Twice " and " goal.toList →
    ∀ todo ∈ todos, ∀ conj ∈ conjunctions, holds conj todo.description.toList = false
  /-- a goal that names its tasks with `and` alone becomes the two sides of the first, however many tasks it names -/
  pair : holds " then " goal.toList = false → ∀ l m r, FoundAt " and ".toList goal.toList l m r →
    Worded (side l ++ side r) todos

theorem left_of_worded {goal : String} {todos : List Todo} (hascii : Ascii goal.toList)
    (h : Worded (apart conjunctions goal.toList) todos) : Left goal todos := by
  have hleft : ∀ tried conj later, conjunctions = tried ++ conj :: later →
      ((∃ todo ∈ todos, holds conj todo.description.toList = true) ↔
        ∃ clause ∈ apart tried goal.toList, Again conj later clause) := by
    intro tried conj later hsplit
    have hconj : conj ∈ conjunctions := hsplit ▸ List.mem_append_right _ List.mem_cons_self
    rw [h.holds_iff fun p => ascii_of_mem_apart hascii, hsplit]
    exact holds_apart_iff hconj hascii
  have hcomplete : (∀ todo ∈ todos, ∀ conj ∈ conjunctions, holds conj todo.description.toList = false) ↔
      (∀ clause ∈ apart [", then ", " and then "] goal.toList, ¬Again " then " [" and "] clause) ∧
        ∀ clause ∈ apart [", then ", " and then ", " then "] goal.toList, ¬Again " and " [] clause := by
    have hthen := hleft [", then ", " and then "] " then " [" and "] rfl
    have hand := hleft [", then ", " and then ", " then "] " and " [] rfl
    constructor
    · intro hnone
      refine ⟨fun clause hclause hagain => ?_, fun clause hclause hagain => ?_⟩
      · obtain ⟨todo, htodo, hholds⟩ := hthen.2 ⟨clause, hclause, hagain⟩
        exact Bool.false_ne_true ((hnone todo htodo _ (by decide)).symm.trans hholds)
      · obtain ⟨todo, htodo, hholds⟩ := hand.2 ⟨clause, hclause, hagain⟩
        exact Bool.false_ne_true ((hnone todo htodo _ (by decide)).symm.trans hholds)
    · rintro ⟨hnothen, hnoand⟩ todo htodo conj hconj
      by_contra hholds
      rcases short_of_mem hconj (Bool.not_eq_false _ ▸ hholds) with hshort | hshort
      · obtain ⟨clause, hclause, hagain⟩ := hthen.1 ⟨todo, htodo, hshort⟩
        exact hnothen clause hclause hagain
      · obtain ⟨clause, hclause, hagain⟩ := hand.1 ⟨todo, htodo, hshort⟩
        exact hnoand clause hclause hagain
  refine ⟨hleft, hcomplete, fun hthen hand => hcomplete.2 ⟨?_, ?_⟩, fun hnot l m r hfound => ?_⟩
  · exact fun clause hclause hagain => hthen (hagain.twice (by decide) (apart_within hclause))
  · exact fun clause hclause hagain => hand (hagain.twice (by decide) (apart_within hclause))
  · rwa [apart_of_no_then hascii hnot, hfound.cut_eq (by decide) hascii] at h

/-- **What is left of the conjunctions of a goal in ASCII** that is no explicit list. It becomes sixteen clauses at most. -/
theorem conjunctions_left (goal : String) (hascii : Ascii goal.toList) (hfew : (explicitItems goal.toList).length < 2) :
    ∃ parts, clauses? goal.toList = some parts ∧ parts.length ≤ 16 ∧
      (2 ≤ parts.length → ∀ next, ∃ todos, ofGoal next goal = some todos ∧ Worded parts todos ∧ Left goal todos) := by
  refine ⟨_, clauses?_eq_apart hascii, apart_length_le (List.Subset.refl _) hascii, fun htwo next => ?_⟩
  obtain ⟨todos, htodos, hworded⟩ := ofGoal_worded hascii hfew htwo next
  exact ⟨todos, htodos, hworded, left_of_worded hascii hworded⟩

/-- three tasks, joined by different conjunctions -/
theorem conjunctions_left_none :
    Ascii "try it and note it then stop".toList ∧ (explicitItems "try it and note it then stop".toList).length < 2 ∧
      clauses? "try it and note it then stop".toList = some ["try it".toList, "note it".toList, "stop".toList] ∧
      ∃ todos, ofGoal 0 "try it and note it then stop" = some todos ∧ Left "try it and note it then stop" todos := by
  obtain ⟨parts, hparts, -, htodos⟩ :=
    conjunctions_left "try it and note it then stop" (by decide +kernel) (by decide +kernel)
  have hclauses : clauses? "try it and note it then stop".toList =
      some ["try it".toList, "note it".toList, "stop".toList] := by decide +kernel
  obtain rfl := Option.some.inj (hclauses.symm.trans hparts)
  obtain ⟨todos, hplan, -, hleft⟩ := htodos (by decide) 0
  exact ⟨by decide +kernel, by decide +kernel, hclauses, todos, hplan, hleft⟩

/-- three tasks, joined by one conjunction, become two todos, and the second still holds it -/
theorem cut_once_only :
    Ascii "a and b and c".toList ∧ (explicitItems "a and b and c".toList).length < 2 ∧
      clauses? "a and b and c".toList = some ["a".toList, "b and c".toList] ∧
      (ofGoal 0 "a and b and c").map (·.map (·.description)) = some ["A", "B and c"] ∧
      holds " and " "B and c".toList = true := by
  decide +kernel

end Foreman.Plan

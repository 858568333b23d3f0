/-
Which lines of a goal are list items, and what they list.

A list item begins with a dash or a star and a blank, or with a number that a full stop or a closing parenthesis ends.
What stands behind is the item, as a whole. The planner looks for the first mark of a line that begins with a digit,
wherever it stands, and does not ask whether only digits stand before it. So a line that begins with a number and has a
mark later on, in a file name or at the end of a sentence, is taken for a list item as well, and its front is lost: it is
`Stray`. Nothing else goes wrong. Every list item is found, with all that stands behind its mark, and becomes a todo.

Results:
- `afterMark_eq_some`: the mark that is found is the first.
- `listed?_iff`:       which lines are taken for list items, and with which text.
- `Item.not_stray`:    no line is a list item and a stray one.
- `list_items`:        what becomes of the lines of a goal, and which goals keep their items whole.
- `cut_in_the_middle`: a line that is cut in a file name.
-/
import Foreman.Proofs.Todo.Cuts

namespace Foreman.Plan

open Text

/-! ## Marks -/

/-- what ends the number of a list item -/
def IsMark (c : Char) : Prop := c = '.' ∨ c = ')'

instance (c : Char) : Decidable (IsMark c) := inferInstanceAs (Decidable (_ ∨ _))

theorem IsMark.not_digit {c : Char} (h : IsMark c) : c.isDigit = false := by
  rcases h with rfl | rfl <;> decide

theorem afterMark_cons (c : Char) (t : List Char) : afterMark (c :: t) = if IsMark c then some t else afterMark t := rfl

/-- **The mark that is found is the first.** -/
theorem afterMark_eq_some {t r : List Char} :
    afterMark t = some r ↔ ∃ u m, t = u ++ m :: r ∧ IsMark m ∧ ∀ c ∈ u, ¬IsMark c := by
  induction t with
  | nil => simp [afterMark]
  | cons c t ih =>
    rw [afterMark_cons]
    by_cases hc : IsMark c
    · rw [if_pos hc, Option.some.injEq]
      constructor
      · rintro rfl
        exact ⟨[], c, rfl, hc, by simp⟩
      · rintro ⟨u, m, ht, -, hu⟩
        cases u with
        | nil => exact (List.cons_eq_cons.1 ht).2
        | cons d u =>
          obtain ⟨rfl, -⟩ := List.cons_eq_cons.1 ht
          exact absurd hc (hu c List.mem_cons_self)
    · rw [if_neg hc, ih]
      constructor
      · rintro ⟨u, m, rfl, hm, hu⟩
        exact ⟨c :: u, m, rfl, hm, List.forall_mem_cons.2 ⟨hc, hu⟩⟩
      · rintro ⟨u, m, ht, hm, hu⟩
        cases u with
        | nil =>
          obtain ⟨rfl, -⟩ := List.cons_eq_cons.1 ht
          exact absurd hm hc
        | cons d u =>
          obtain ⟨rfl, rfl⟩ := List.cons_eq_cons.1 ht
          exact ⟨u, m, rfl, hm, fun x hx => hu x (List.mem_cons_of_mem _ hx)⟩

/-! ## Lines -/

/-- a line that begins with a number: the number, what stands between it and the first mark, the mark, and a rest that is
not blank -/
structure Numbered (line number between : List Char) (mark : Char) (rest : List Char) : Prop where
  whole : line = number ++ between ++ mark :: rest
  begins : number ≠ []
  digits : ∀ c ∈ number, c.isDigit = true
  ends : ∀ c ∈ between.head?, c.isDigit = false
  unmarked : ∀ c ∈ between, ¬IsMark c
  isMark : IsMark mark
  notBlank : trimChars rest ≠ []

/-- a line without outer blanks is marked as a list item, and the rest stands behind the mark -/
inductive Item (line rest : List Char) : Prop
  | dash (h : line = '-' :: ' ' :: rest)
  | star (h : line = '*' :: ' ' :: rest)
  | number {number : List Char} {mark : Char} (h : Numbered line number [] mark rest)

/-- a line that begins with a number has a mark, but not where the number ends -/
def Stray (line rest : List Char) : Prop :=
  ∃ number between mark, between ≠ [] ∧ Numbered line number between mark rest

section Numbered

variable {line number between rest : List Char} {mark : Char}

theorem Numbered.head (h : Numbered line number between mark rest) : ∃ c tail, line = c :: tail ∧ c.isDigit = true := by
  obtain ⟨c, tail, rfl⟩ := List.exists_cons_of_ne_nil h.begins
  exact ⟨c, tail ++ between ++ mark :: rest, h.whole, h.digits c List.mem_cons_self⟩

theorem Numbered.afterMark_eq (h : Numbered line number between mark rest) : afterMark line = some rest := by
  refine afterMark_eq_some.2 ⟨number ++ between, mark, h.whole, h.isMark, fun c hc => ?_⟩
  rcases List.mem_append.1 hc with hc | hc
  · intro hmark
    have hdigit := h.digits c hc
    rw [hmark.not_digit] at hdigit
    cases hdigit
  · exact h.unmarked c hc

theorem Numbered.long (h : Numbered line number between mark rest) : 2 < byteSize line := by
  obtain ⟨c, number', rfl⟩ := List.exists_cons_of_ne_nil h.begins
  obtain ⟨d, rest', rfl⟩ : ∃ d rest', rest = d :: rest' :=
    List.exists_cons_of_ne_nil fun hnil => h.notBlank (by rw [hnil]; rfl)
  have hc := c.utf8Size_pos
  have hm := mark.utf8Size_pos
  have hd := d.utf8Size_pos
  rw [h.whole]
  simp only [byteSize_append, byteSize]
  omega

/-- the number of a line is all the digits that it begins with -/
theorem Numbered.number_eq (h : Numbered line number between mark rest) : number = line.takeWhile Char.isDigit := by
  have hstop : (between ++ mark :: rest).takeWhile Char.isDigit = [] := by
    cases between with
    | nil => simp [h.isMark.not_digit]
    | cons c between => simp [h.ends c rfl]
  rw [h.whole, List.append_assoc, List.takeWhile_append_of_pos h.digits, hstop, List.append_nil]

theorem exists_numbered {c : Char} (hline : line.head? = some c) (hc : c.isDigit = true)
    (hafter : afterMark line = some rest) (hrest : trimChars rest ≠ []) :
    ∃ number between mark, Numbered line number between mark rest := by
  obtain ⟨u, m, rfl, hm, hu⟩ := afterMark_eq_some.1 hafter
  have hsplit := List.takeWhile_append_dropWhile (p := Char.isDigit) (l := u)
  refine ⟨u.takeWhile Char.isDigit, u.dropWhile Char.isDigit, m, ?_⟩
  constructor
  case whole => rw [hsplit]
  case begins =>
    intro hnil
    cases u with
    | nil =>
      obtain rfl : m = c := Option.some.inj hline
      rw [hm.not_digit] at hc
      cases hc
    | cons d u =>
      obtain rfl : d = c := Option.some.inj hline
      rw [List.takeWhile_cons_of_pos hc] at hnil
      cases hnil
  case digits =>
    intro x hx
    exact List.mem_takeWhile_imp hx
  case ends =>
    intro x hx
    have hnot := List.head?_dropWhile_not Char.isDigit u
    rwa [Option.mem_def.1 hx] at hnot
  case unmarked =>
    intro x hx
    apply hu
    rw [← hsplit]
    exact List.mem_append_right _ hx
  case isMark => exact hm
  case notBlank => exact hrest

end Numbered

/-! ## What is taken for a list item -/

/-- a line is a list item, or it is taken for one -/
def Taken (line rest : List Char) : Prop := Item line rest ∨ Stray line rest

section Taken

variable {line rest rest' : List Char}

theorem Taken.cases (h : Taken line rest) :
    line = '-' :: ' ' :: rest ∨ line = '*' :: ' ' :: rest ∨
      ∃ number between mark, Numbered line number between mark rest := by
  rcases h with hitem | ⟨number, between, mark, -, h⟩
  · cases hitem with
    | dash h => exact Or.inl h
    | star h => exact Or.inr (Or.inl h)
    | number h => exact Or.inr (Or.inr ⟨_, _, _, h⟩)
  · exact Or.inr (Or.inr ⟨number, between, mark, h⟩)

theorem Taken.of_numbered {number between : List Char} {mark : Char} (h : Numbered line number between mark rest) :
    Taken line rest := by
  cases between with
  | nil => exact Or.inl (.number h)
  | cons c between => exact Or.inr ⟨number, c :: between, mark, List.cons_ne_nil _ _, h⟩

/-- of a line that begins with a digit, what stands behind the first mark is taken, if it is not blank -/
theorem taken_iff_of_digit {c : Char} {tail : List Char} (hc : c.isDigit = true) :
    Taken (c :: tail) rest ↔ afterMark (c :: tail) = some rest ∧ trimChars rest ≠ [] := by
  constructor
  · intro h
    rcases h.cases with h | h | ⟨number, between, mark, h⟩
    · obtain ⟨rfl, -⟩ := List.cons_eq_cons.1 h
      cases hc
    · obtain ⟨rfl, -⟩ := List.cons_eq_cons.1 h
      cases hc
    · exact ⟨h.afterMark_eq, h.notBlank⟩
  · rintro ⟨hafter, hrest⟩
    obtain ⟨number, between, mark, h⟩ := exists_numbered rfl hc hafter hrest
    exact .of_numbered h

theorem Taken.unique (h : Taken line rest) (h' : Taken line rest') : rest = rest' := by
  have hdigit : ∀ {c : Char} {tail : List Char}, line = c :: tail → c.isDigit = true → rest = rest' := by
    rintro c tail rfl hc
    have hafter := ((taken_iff_of_digit hc).1 h).1
    rw [((taken_iff_of_digit hc).1 h').1, Option.some.injEq] at hafter
    exact hafter.symm
  rcases h.cases with rfl | rfl | ⟨number, between, mark, hnumbered⟩
  · rcases h'.cases with h' | h' | ⟨number, between, mark, h'⟩
    · exact (List.cons_eq_cons.1 (List.cons_eq_cons.1 h').2).2
    · cases h'
    · obtain ⟨c, tail, hline, hc⟩ := h'.head
      exact hdigit hline hc
  · rcases h'.cases with h' | h' | ⟨number, between, mark, h'⟩
    · cases h'
    · exact (List.cons_eq_cons.1 (List.cons_eq_cons.1 h').2).2
    · obtain ⟨c, tail, hline, hc⟩ := h'.head
      exact hdigit hline hc
  · obtain ⟨c, tail, hline, hc⟩ := hnumbered.head
    exact hdigit hline hc

theorem Item.not_stray (h : Item line rest) : ¬Stray line rest' := by
  rintro ⟨number, between, mark, hbetween, hstray⟩
  obtain ⟨c, tail, hline, hc⟩ := hstray.head
  cases h with
  | dash h =>
    rw [h, List.cons_eq_cons] at hline
    rw [← hline.1] at hc
    cases hc
  | star h =>
    rw [h, List.cons_eq_cons] at hline
    rw [← hline.1] at hc
    cases hc
  | @number number' mark' h =>
    -- both numbers are all the digits at the front, so the mark stands right behind them
    have hwhole := hstray.whole
    rw [h.whole, h.number_eq, ← hstray.number_eq, List.append_nil, List.append_assoc, List.append_cancel_left_eq] at hwhole
    cases between with
    | nil => exact hbetween rfl
    | cons d between =>
      obtain ⟨rfl, -⟩ := List.cons_eq_cons.1 hwhole
      exact hstray.unmarked _ List.mem_cons_self h.isMark

end Taken

/-- **Which lines are taken for list items**, and with which text. -/
theorem listed?_iff (line q : List Char) :
    (listed? line).map trimChars = some q ↔ ∃ rest, Taken (trimChars line) rest ∧ q = trimChars rest := by
  simp only [listed?]
  generalize trimChars line = t
  have hmarked : ∀ {r : List Char}, Taken t r →
      ((some r).map trimChars = some q ↔ ∃ rest, Taken t rest ∧ q = trimChars rest) := by
    intro r hr
    rw [Option.map_some, Option.some.injEq]
    constructor
    · intro h
      exact ⟨r, hr, h.symm⟩
    · rintro ⟨rest, h, rfl⟩
      rw [hr.unique h]
  split
  · exact hmarked (Or.inl (.dash rfl))
  · exact hmarked (Or.inl (.star rfl))
  · next c tail hdash hstar =>
    split_ifs with hlong
    · rw [exists_congr fun rest => and_congr_left' (taken_iff_of_digit hlong.2)]
      cases hafter : afterMark (c :: tail) with
      | none => simp
      | some r =>
        by_cases hr : trimChars r = []
        · simp [hr]
        · simp [hr, trimChars_idem, @eq_comm _ q]
    · have hnot : ∀ rest, ¬Taken (c :: tail) rest := by
        intro rest h
        rcases h.cases with h | h | ⟨number, between, mark, h⟩
        · obtain ⟨hc, htail⟩ := List.cons_eq_cons.1 h
          exact hdash rest hc htail
        · obtain ⟨hc, htail⟩ := List.cons_eq_cons.1 h
          exact hstar rest hc htail
        · obtain ⟨d, tail', hline, hd⟩ := h.head
          obtain ⟨rfl, -⟩ := List.cons_eq_cons.1 hline
          exact hlong ⟨h.long, hd⟩
      simp [hnot]
  · have hnot : ∀ rest, ¬Taken [] rest := by
      intro rest h
      rcases h.cases with h | h | ⟨number, between, mark, h⟩
      · cases h
      · cases h
      · obtain ⟨d, tail', hline, -⟩ := h.head
        cases hline
    simp [hnot]

theorem Taken.notBlank {line rest : List Char} (h : Taken (trimChars line) rest) : trimChars rest ≠ [] := by
  -- behind a dash or a star and a blank stands the end of the line, which is no blank
  have hlast : ∀ mark, trimChars line = mark :: ' ' :: rest → trimChars rest ≠ [] := by
    intro mark hline hnil
    rw [trimChars_eq_nil] at hnil
    obtain ⟨c, hc⟩ : ∃ c, (' ' :: rest).getLast? = some c := ⟨_, List.getLast?_eq_getLast_of_ne_nil (List.cons_ne_nil _ _)⟩
    have hblank : isBlank c = true := by
      rcases List.mem_cons.1 (List.mem_of_getLast? hc) with rfl | hmem
      · decide
      · exact hnil c hmem
    have hend : c ∈ (trimChars line).getLast? := by
      rw [hline, List.getLast?_cons_cons]
      exact hc
    have hnot : isBlank c = false := trimChars_last hend
    rw [hblank] at hnot
    cases hnot
  rcases h.cases with hline | hline | ⟨number, between, mark, hline⟩
  · exact hlast _ hline
  · exact hlast _ hline
  · exact hline.notBlank

/-! ## Goals -/

/-- lines, and the items among them: each line that has one lists all that it has, and the others list nothing -/
inductive Lists (P : List Char → List Char → Prop) : List (List Char) → List (List Char) → Prop
  | nil : Lists P [] []
  | item {line rest : List Char} {lines items : List (List Char)} (h : P (trimChars line) rest)
      (others : Lists P lines items) : Lists P (line :: lines) (trimChars rest :: items)
  | plain {line : List Char} {lines items : List (List Char)} (h : ∀ rest, ¬P (trimChars line) rest)
      (others : Lists P lines items) : Lists P (line :: lines) items

section Lists

variable {P Q : List Char → List Char → Prop} {ls items more : List (List Char)}

theorem Lists.congr (h : Lists P ls items) (hPQ : ∀ line ∈ ls, ∀ rest, P (trimChars line) rest ↔ Q (trimChars line) rest) :
    Lists Q ls items := by
  induction h with
  | nil => exact .nil
  | item h _ ih =>
    exact .item ((hPQ _ List.mem_cons_self _).1 h) (ih fun line hline => hPQ line (List.mem_cons_of_mem _ hline))
  | plain h _ ih =>
    exact .plain (fun rest hrest => h rest ((hPQ _ List.mem_cons_self _).2 hrest))
      (ih fun line hline => hPQ line (List.mem_cons_of_mem _ hline))

theorem Lists.length_le (hsub : ∀ line rest, P line rest → Q line rest) (h : Lists P ls items) (hmore : Lists Q ls more) :
    items.length ≤ more.length ∧ (items.length = more.length → ∀ line ∈ ls, ∀ rest, Q (trimChars line) rest →
      ∃ rest', P (trimChars line) rest') := by
  induction h generalizing more with
  | nil =>
    cases hmore
    simp
  | @item line rest lines items hP _ ih =>
    cases hmore with
    | item _ hothers =>
      obtain ⟨hle, heq⟩ := ih hothers
      refine ⟨Nat.succ_le_succ hle, fun hsame => List.forall_mem_cons.2 ⟨fun _ _ => ⟨rest, hP⟩, ?_⟩⟩
      exact heq (Nat.succ.inj hsame)
    | plain hQ _ => exact absurd (hsub _ _ hP) (hQ rest)
  | @plain line lines items hP _ ih =>
    cases hmore with
    | item _ hothers =>
      have hle := (ih hothers).1
      exact ⟨Nat.le_succ_of_le hle, fun hsame => absurd hsame (Nat.ne_of_lt (Nat.lt_succ_of_le hle))⟩
    | plain hQ hothers =>
      obtain ⟨hle, heq⟩ := ih hothers
      refine ⟨hle, fun hsame => List.forall_mem_cons.2 ⟨fun rest hrest => absurd hrest (hQ rest), heq hsame⟩⟩

theorem lists_taken (ls : List (List Char)) : Lists Taken ls ((ls.filterMap listed?).map trimChars) := by
  induction ls with
  | nil => exact .nil
  | cons line ls ih =>
    cases hline : listed? line with
    | none =>
      rw [List.filterMap_cons_none hline]
      refine .plain (fun rest hrest => ?_) ih
      have hsome := (listed?_iff line _).2 ⟨rest, hrest, rfl⟩
      rw [hline] at hsome
      cases hsome
    | some q =>
      rw [List.filterMap_cons_some hline, List.map_cons]
      obtain ⟨rest, hrest, hq⟩ := (listed?_iff line (trimChars q)).1 (by rw [hline]; rfl)
      rw [hq]
      exact .item hrest ih

theorem Lists.notBlank (h : Lists Taken ls items) : ∀ q ∈ items, trimChars q = q ∧ q ≠ [] := by
  induction h with
  | nil => simp
  | item h _ ih => exact List.forall_mem_cons.2 ⟨⟨trimChars_idem _, h.notBlank⟩, ih⟩
  | plain _ _ ih => exact ih

end Lists

/-- what becomes of the lines of a goal -/
structure ListsItems (goal : String) (items : List (List Char)) : Prop where
  /-- the list items and the stray lines are listed, each with the whole rest behind its mark, and no other line -/
  taken : Lists Taken (lines goal.toList) items
  /-- the list items alone are listed exactly if no line is stray -/
  items_iff : Lists Item (lines goal.toList) items ↔ ∀ line ∈ lines goal.toList, ∀ rest, ¬Stray (trimChars line) rest
  /-- an explicit list becomes one todo for each item, worded as the item is, its first letter raised -/
  worded : 2 ≤ items.length → ∀ next, ∃ todos, ofGoal next goal = some todos ∧
    todos.map (·.description) = items.map fun q => String.ofList (capitalizeChars q)

/-- **A goal lists its items whole**, and nothing else, unless it has a stray line. -/
theorem list_items (goal : String) : ListsItems goal ((explicitItems goal.toList).map trimChars) := by
  have htaken := lists_taken (lines goal.toList)
  have hsides : (explicitItems goal.toList).flatMap side = (explicitItems goal.toList).map trimChars := by
    rw [flatMap_side, List.filter_eq_self]
    intro q hq
    simpa using (htaken.notBlank q hq).2
  exact
    { taken := htaken
      items_iff := by
        constructor
        · intro h line hline rest hstray
          -- both list as many items, so the stray line is a list item as well
          have hsame := (h.length_le (fun _ _ => Or.inl) htaken).2 rfl
          obtain ⟨rest', hitem⟩ := hsame line hline rest (Or.inr hstray)
          exact hitem.not_stray hstray
        · intro hnone
          apply htaken.congr
          intro line hline rest
          exact or_iff_left (hnone line hline rest)
      worded := by
        intro htwo next
        rw [List.length_map] at htwo
        refine ⟨ofClauses next (explicitItems goal.toList), by rw [ofGoal, if_pos htwo], ?_⟩
        rw [ofClauses_descriptions, hsides] }

/-- a line with a number and a file name is cut in the file name -/
theorem cut_in_the_middle :
    Stray "3 tests in parser.rs fail".toList "rs fail".toList ∧ (∀ rest, ¬Item "3 tests in parser.rs fail".toList rest) ∧
      (ofGoal 0 "1. Update the parser\n2. Fix the lexer\n3 tests in parser.rs fail").map (·.map (·.description)) =
        some ["Update the parser", "Fix the lexer", "Rs fail"] := by
  have hstray : Stray "3 tests in parser.rs fail".toList "rs fail".toList := by
    refine ⟨"3".toList, " tests in parser".toList, '.', by simp, ?_⟩
    constructor
    case notBlank => decide +kernel
    all_goals simp [IsMark]
  exact ⟨hstray, fun rest hitem => hitem.not_stray hstray, by decide +kernel⟩

end Foreman.Plan

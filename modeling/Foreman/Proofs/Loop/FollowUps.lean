/-
Suggestions of further work, and the todos that are made of them.

Agents suggest the same work again and again. Planning makes no todo of a suggestion whose wording is on the list
already; but a todo is worded with its first letter raised after the full Unicode mapping, and the wordings are compared
up to ASCII letters alone. So the list recognises a suggestion that it has made a todo of exactly if the first letter
of the suggestion is ASCII or has no capital form but itself (`Recognised`).

A recognised suggestion that is not known makes a todo by which it is known from then on, since todos stay on the list
as they are worded. So the todos made of it and what is known of it before never come to more than what is known of it
after (`next_paced`), in planning, in creating tasks and through any operation on the list in between.

Results:
- `sameLetters_item`:      which suggestions are recognised in their own todos.
- `run_paced`:             a recognised suggestion makes one todo at most, and none if it is known.
- `planned_once_iff`:      a suggestion is planned once at most, in every run, exactly if it is recognised.
- `planned_twice`:         a suggestion that is planned twice, in planning and in creating tasks.
-/
import Mathlib
import Foreman.Loop.Review
import Foreman.Loop.Work
import Foreman.Proofs.Todo.Operations

namespace Foreman.Loop

open Text

/-! ## Wording -/

/-- the first letter of a text, blanks left out, is ASCII or has no capital form but itself -/
def Recognised (text : String) : Prop := ∀ c ∈ (trimChars text.toList).head?, c.toNat < 128 ∨ upperChar c = [c]

theorem recognised_congr {text text' : String} (h : trim text' = trim text) : Recognised text' ↔ Recognised text := by
  have hchars : trimChars text'.toList = trimChars text.toList := by simpa [trim] using congrArg String.toList h
  rw [Recognised, Recognised, hchars]

/-- only the capitals of ASCII have another small form there, and it is in ASCII too -/
theorem toLower_beyond {c : Char} (hc : ¬c.toNat < 128) (u : Char) : u.toLower = c.toLower ↔ u = c := by
  have hup : ∀ d : Char, d.isUpper = true ↔ 65 ≤ d.toNat ∧ d.toNat ≤ 90 := by
    intro d
    simp [Char.isUpper, UInt32.le_iff_toNat_le, ← Char.toNat_val]
  have hcsmall : c.toLower = c := Char.toLower_eq_of_not_isUpper fun h => by
    obtain ⟨-, hle⟩ := (hup c).1 h
    omega
  rw [hcsmall]
  refine ⟨fun hu => ?_, fun hu => hu ▸ hcsmall⟩
  by_cases h : u.isUpper = true
  · obtain ⟨hge, hle⟩ := (hup u).1 h
    rw [Char.toLower_eq_of_isUpper h] at hu
    have hnat : c.toNat = u.toNat + 32 := by
      rw [← hu, Char.toNat_ofNat, if_pos]
      exact Or.inl (by omega)
    omega
  · rwa [Char.toLower_eq_of_not_isUpper h] at hu

/-- **A text with its first letter raised** reads as the text does, up to ASCII letters, in these cases and no others. -/
theorem capitalize_toLower (cs : List Char) :
    (capitalizeChars cs).map Char.toLower = cs.map Char.toLower ↔
      ∀ c ∈ cs.head?, c.toNat < 128 ∨ upperChar c = [c] := by
  cases cs with
  | nil => simp [capitalizeChars]
  | cons c r =>
    simp only [capitalizeChars, List.map_append, List.map_cons, List.head?_cons, Option.mem_def, Option.some.injEq,
      forall_eq']
    by_cases hc : c.toNat < 128
    · simp [hc, upperChar]
    · constructor
      · intro h
        -- the capital form is one letter, since all other letters stay
        have hlength : (upperChar c).length = 1 := by
          have := congrArg List.length h
          simp only [List.length_append, List.length_map, List.length_cons] at this
          omega
        obtain ⟨u, hu⟩ := List.length_eq_one_iff.1 hlength
        rw [hu, List.map_singleton, List.singleton_append, List.cons.injEq, toLower_beyond hc] at h
        exact Or.inr (by rw [hu, h.1])
      · rintro (h | h)
        · exact absurd h hc
        · simp [h]

/-- **A suggestion is recognised in its own todo** in these cases and no others. -/
theorem sameLetters_item (id : Ident) (text : String) :
    sameLetters (Plan.item id text).description (trim text) = true ↔ Recognised text := by
  rw [Recognised, ← capitalize_toLower]
  simp [sameLetters, Plan.item, Todo.fresh, trim]

theorem not_allBlank {text : String} (h : trimChars text.toList ≠ []) : allBlank text = false := by
  by_contra hb
  have hblank : ∀ c ∈ text.toList, isBlank c = true := by simpa [allBlank] using hb
  have hfront : trimFront text.toList = [] := List.dropWhile_eq_nil_iff.2 hblank
  rw [trimChars, hfront] at h
  exact h rfl

/-! ## One suggestion -/

theorem isKnown_congr (T : TodoList) {text text' : String} (h : trim text' = trim text) :
    isKnown T text' = isKnown T text := by
  rw [isKnown, isKnown, h]

theorem isKnown_mono {T T' : TodoList} {touch : Todo → Todo} {new : List Todo} (h : T'.items = T.items.map touch ++ new)
    (hsame : ∀ t : Todo, (touch t).description = t.description) {text : String} (hk : isKnown T text = true) :
    isKnown T' text = true := by
  obtain ⟨t, ht, hwords⟩ := List.any_eq_true.1 hk
  refine List.any_eq_true.2 ⟨touch t, ?_, ?_⟩
  · rw [h]
    exact List.mem_append_left _ (List.mem_map_of_mem ht)
  · rw [hsame]
    exact hwords

theorem isKnown_extended {T T' : TodoList} (h : T.items <+: T'.items) {text : String} (hk : isKnown T text = true) :
    isKnown T' text = true := by
  obtain ⟨new, hnew⟩ := h
  have hitems : T'.items = T.items.map id ++ new := by rw [List.map_id, hnew]
  exact isKnown_mono hitems (fun _ => rfl) hk

/-- what planning does about a suggestion: nothing, or it puts last a todo for it that was not known -/
theorem planFollowUp_cases (s : TodoList × Nat) (text : String) :
    (planFollowUp s text).1 = s.1 ∨
      isKnown s.1 text = false ∧ allBlank text = false ∧
        (planFollowUp s text).1.items = s.1.items ++ [Plan.item (.minted s.2) text] := by
  unfold planFollowUp
  split_ifs with h
  · exact Or.inl rfl
  · simp only [Bool.or_eq_true, not_or, Bool.not_eq_true] at h
    unfold TodoList.push
    split_ifs
    · exact Or.inl rfl
    · exact Or.inr ⟨h.1, h.2, rfl⟩

/-- the todos that a suggestion adds, each with the suggestion -/
def added (s : TodoList × Nat) (text : String) : List (String × Todo) :=
  ((planFollowUp s text).1.items.drop s.1.size).map fun t => (text, t)

/-- the todos that the suggestions of a batch add, each with its suggestion -/
def addedAll (s : TodoList × Nat) : List String → List (String × Todo)
  | [] => []
  | text :: texts => added s text ++ addedAll (planFollowUp s text) texts

theorem mem_added {s : TodoList × Nat} {text : String} {p : String × Todo} (h : p ∈ added s text) :
    p.1 = text ∧ allBlank text = false ∧ p.2 = Plan.item (.minted s.2) text := by
  obtain ⟨t, ht, rfl⟩ := List.mem_map.1 h
  rcases planFollowUp_cases s text with heq | ⟨-, hblank, hitems⟩
  · simp [heq, TodoList.size] at ht
  · simp only [hitems, TodoList.size, List.drop_left, List.mem_singleton] at ht
    exact ⟨rfl, hblank, ht⟩

theorem planFollowUp_items (s : TodoList × Nat) (text : String) :
    (planFollowUp s text).1.items = s.1.items ++ (added s text).map Prod.snd := by
  rcases planFollowUp_cases s text with heq | ⟨-, -, hitems⟩
  · simp [added, heq, TodoList.size]
  · simp [added, hitems, TodoList.size]

/-- **All todos that a batch adds come from its suggestions**, in their order. -/
theorem planFollowUps_items (s : TodoList × Nat) (texts : List String) :
    (planFollowUps s.1 s.2 texts).1.items = s.1.items ++ (addedAll s texts).map Prod.snd := by
  induction texts generalizing s with
  | nil => simp [planFollowUps, addedAll]
  | cons text texts ih =>
    have hrest := ih (planFollowUp s text)
    rw [planFollowUp_items] at hrest
    rw [planFollowUps, List.foldl_cons, addedAll, List.map_append, ← List.append_assoc]
    exact hrest

/-! ## Paced -/

/-- how many of the todos were made of a suggestion, whatever blanks are around it -/
def timesMade (text : String) (made : List (String × Todo)) : Nat := made.countP fun p => trim p.1 == trim text

/-- what is known of a suggestion, as a number -/
def knownOf (text : String) (T : TodoList) : Nat := (isKnown T text).toNat

theorem knownOf_le_one (text : String) (T : TodoList) : knownOf text T ≤ 1 := Bool.toNat_le _

theorem knownOf_mono {text : String} {T T' : TodoList} (h : isKnown T text = true → isKnown T' text = true) :
    knownOf text T ≤ knownOf text T' := by
  unfold knownOf
  cases hk : isKnown T text with
  | false => exact Nat.zero_le _
  | true => rw [h hk]

/-- **A recognised suggestion makes a todo only if it was not known, and then it is.** -/
theorem planFollowUp_paced {text : String} (hr : Recognised text) (s : TodoList × Nat) (other : String) :
    timesMade text (added s other) + knownOf text s.1 ≤ knownOf text (planFollowUp s other).1 := by
  rcases planFollowUp_cases s other with heq | ⟨hknown, -, hitems⟩
  · simp [timesMade, added, heq, TodoList.size]
  · have hadded : added s other = [(other, Plan.item (.minted s.2) other)] := by simp [added, hitems, TodoList.size]
    by_cases hsame : trim other = trim text
    · have hbefore : isKnown s.1 text = false := by rw [← hknown, isKnown_congr _ hsame]
      have hwords := (sameLetters_item (.minted s.2) other).2 ((recognised_congr hsame).2 hr)
      have hafter : isKnown (planFollowUp s other).1 text = true := by
        rw [← isKnown_congr _ hsame, isKnown, hitems]
        simp [hwords]
      simp [timesMade, hadded, hsame, knownOf, hbefore, hafter]
    · have hmono : knownOf text s.1 ≤ knownOf text (planFollowUp s other).1 :=
        knownOf_mono fun hk => isKnown_extended (hitems ▸ List.prefix_append _ _) hk
      simpa [timesMade, hadded, hsame] using hmono

theorem planFollowUps_paced {text : String} (hr : Recognised text) (s : TodoList × Nat) (texts : List String) :
    timesMade text (addedAll s texts) + knownOf text s.1 ≤ knownOf text (planFollowUps s.1 s.2 texts).1 := by
  induction texts generalizing s with
  | nil => simp [timesMade, addedAll, planFollowUps]
  | cons other texts ih =>
    have hfirst := planFollowUp_paced hr s other
    have hrest := ih (planFollowUp s other)
    have hsum : timesMade text (addedAll s (other :: texts)) =
        timesMade text (added s other) + timesMade text (addedAll (planFollowUp s other) texts) := by
      simp [timesMade, addedAll, List.countP_append]
    rw [planFollowUps, List.foldl_cons, hsum]
    exact le_trans (by omega) hrest

/-! ## Runs -/

/-- the todos that planning starts from, with those of the goal if there were none, and the next free number; none when
the goal cannot be cut -/
def readied (c : WorkContext) : Option (TodoList × Nat) :=
  if c.todos.isEmpty then (Plan.ofGoal c.nextId c.goal).map fun ts => (c.todos.extend ts, c.nextId + ts.length)
  else some (c.todos, c.nextId)

/-- planning makes todos of suggestions once there are todos of the goal -/
theorem plan_eq_readied (c : WorkContext) :
    WorkLoop.plan c = (readied c).map fun s =>
      { c with
        todos := (planFollowUps s.1 s.2 c.followUps).1
        nextId := (planFollowUps s.1 s.2 c.followUps).2
        followUps := [] } := by
  unfold WorkLoop.plan readied
  split_ifs
  · cases Plan.ofGoal c.nextId c.goal <;> rfl
  · rfl

/-- what happens to the todos of a loop and the next free number -/
inductive Event where
  /-- a work loop plans, in a context with these todos -/
  | plan (c : WorkContext)
  /-- a review creates tasks, in a context with these todos -/
  | createTasks (c : ReviewContext)
  /-- an operation on the todos -/
  | change (op : TodoList.Op)

namespace Event

def next (s : TodoList × Nat) : Event → TodoList × Nat
  | .plan c => ((WorkLoop.plan { c with todos := s.1, nextId := s.2 }).map fun c => (c.todos, c.nextId)).getD s
  | .createTasks c =>
    let c := ReviewLoop.createTasks { c with todos := s.1, nextId := s.2 }
    (c.todos, c.nextId)
  | .change op => (s.1.step op, s.2)

/-- the todos that an event makes of suggestions, each with its suggestion -/
def made (s : TodoList × Nat) : Event → List (String × Todo)
  | .plan c => ((readied { c with todos := s.1, nextId := s.2 }).map fun s => addedAll s c.followUps).getD []
  | .createTasks c => addedAll s c.followUps
  | .change _ => []

end Event

/-- the todos that are made of suggestions in events one after the other, each with its suggestion -/
def madeIn (s : TodoList × Nat) : List Event → List (String × Todo)
  | [] => []
  | e :: events => e.made s ++ madeIn (e.next s) events

theorem readied_extends {c : WorkContext} {s : TodoList × Nat} (h : readied c = some s) : c.todos.items <+: s.1.items := by
  unfold readied at h
  split_ifs at h
  · obtain ⟨ts, -, rfl⟩ := Option.map_eq_some_iff.1 h
    exact TodoList.extend_items _ _
  · cases h
    exact List.prefix_refl _

/-- **A recognised suggestion makes a todo only if it was not known, and then it stays known**, whichever handler plans
it and whatever is done with the todos. -/
theorem next_paced {text : String} (hr : Recognised text) (s : TodoList × Nat) (e : Event) :
    timesMade text (e.made s) + knownOf text s.1 ≤ knownOf text (e.next s).1 := by
  cases e with
  | plan c =>
    simp only [Event.made, Event.next, plan_eq_readied, Option.map_map]
    cases hb : readied { c with todos := s.1, nextId := s.2 } with
    | none => simp [timesMade]
    | some b =>
      have hgoal : knownOf text s.1 ≤ knownOf text b.1 := knownOf_mono (isKnown_extended (readied_extends hb))
      have hbatch := planFollowUps_paced hr b c.followUps
      simp only [Option.map_some, Option.getD_some, Function.comp_apply]
      omega
  | createTasks c => exact planFollowUps_paced hr s c.followUps
  | change op =>
    obtain ⟨touch, new, htouched⟩ := s.1.step_touched op
    have hmono : knownOf text s.1 ≤ knownOf text (s.1.step op) :=
      knownOf_mono (isKnown_mono htouched.items fun t => (htouched.same t).description)
    simpa [timesMade, Event.made, Event.next] using hmono

/-- **A recognised suggestion makes one todo at most in a run**, and none if it was known. -/
theorem run_paced {text : String} (hr : Recognised text) (s : TodoList × Nat) (events : List Event) :
    timesMade text (madeIn s events) + knownOf text s.1 ≤ 1 := by
  induction events generalizing s with
  | nil => simpa [timesMade, madeIn] using knownOf_le_one text s.1
  | cons e events ih =>
    have hfirst := next_paced hr s e
    have hrest := ih (e.next s)
    have hsum : timesMade text (madeIn s (e :: events)) =
        timesMade text (e.made s) + timesMade text (madeIn (e.next s) events) := by
      simp [timesMade, madeIn, List.countP_append]
    omega

/-! ## Suggestions that are not recognised -/

/-- **A suggestion that is not recognised makes a todo each time**, as long as new ids are free: no todo that is made of
it makes it known. -/
theorem unrecognised_each_time {text : String} (hr : ¬Recognised text) (k : Nat) (s : TodoList × Nat)
    (hknown : isKnown s.1 text = false) (hfree : ∀ n, s.2 ≤ n → Ident.minted n ∉ s.1.ids) :
    timesMade text (addedAll s (List.replicate k text)) = k := by
  induction k generalizing s with
  | zero => rfl
  | succ k ih =>
    have hblank : allBlank text = false := by
      apply not_allBlank
      intro hnil
      apply hr
      simp [Recognised, hnil]
    have hget : s.1.get? (.minted s.2) = none := (s.1.get?_eq_none _).2 (hfree _ le_rfl)
    have hnext : planFollowUp s text = (⟨s.1.items ++ [Plan.item (.minted s.2) text]⟩, s.2 + 1) := by
      have hid : (Plan.item (.minted s.2) text).id = .minted s.2 := rfl
      simp [planFollowUp, hknown, hblank, TodoList.push, hid, hget]
    have hadded : added s text = [(text, Plan.item (.minted s.2) text)] := by simp [added, hnext, TodoList.size]
    have hstill : isKnown (planFollowUp s text).1 text = false := by
      have hwords : sameLetters (Plan.item (.minted s.2) text).description (trim text) = false := by
        rw [← Bool.not_eq_true, sameLetters_item]
        exact hr
      rw [isKnown, hnext]
      rw [isKnown] at hknown
      simp [hknown, hwords]
    have hrest := ih (planFollowUp s text) hstill fun n hn => by
      rw [hnext] at hn ⊢
      have hlast : Ident.minted n ≠ .minted s.2 := by
        intro heq
        cases heq
        simp at hn
      have hold := hfree n (by simp only at hn; omega)
      simpa [TodoList.ids, Plan.item, Todo.fresh] using ⟨by simpa [TodoList.ids] using hold, by simpa using hlast⟩
    rw [List.replicate_succ, addedAll, hadded]
    simpa [timesMade] using hrest

/-! ## Planning once -/

/-- which todos are made of a suggestion, and of all others, in every run -/
structure MadeOnce (text : String) : Prop where
  /-- the suggestion becomes one todo at most exactly if it is recognised -/
  once : (∀ s events, timesMade text (madeIn s events) ≤ 1) ↔ Recognised text
  /-- nothing is made of a blank suggestion, and every todo is worded after its suggestion -/
  worded : ∀ s events, ∀ p ∈ madeIn s events, allBlank p.1 = false ∧ ∃ n, p.2 = Plan.item (.minted n) p.1
  /-- creating tasks adds these todos and no others -/
  tasks : ∀ s c, ((Event.createTasks c).next s).1.items = s.1.items ++ ((Event.createTasks c).made s).map Prod.snd
  /-- planning adds these todos to those on the list and of the goal -/
  planning : ∀ s c b, readied { c with todos := s.1, nextId := s.2 } = some b →
    ((Event.plan c).next s).1.items = b.1.items ++ ((Event.plan c).made s).map Prod.snd

theorem mem_addedAll {s : TodoList × Nat} {texts : List String} {p : String × Todo} (h : p ∈ addedAll s texts) :
    allBlank p.1 = false ∧ ∃ n, p.2 = Plan.item (.minted n) p.1 := by
  induction texts generalizing s with
  | nil => cases h
  | cons text texts ih =>
    rcases List.mem_append.1 h with h | h
    · obtain ⟨rfl, hblank, hitem⟩ := mem_added h
      exact ⟨hblank, s.2, hitem⟩
    · exact ih h

theorem mem_madeIn {s : TodoList × Nat} {events : List Event} {p : String × Todo} (h : p ∈ madeIn s events) :
    allBlank p.1 = false ∧ ∃ n, p.2 = Plan.item (.minted n) p.1 := by
  induction events generalizing s with
  | nil => cases h
  | cons e events ih =>
    rcases List.mem_append.1 h with h | h
    · cases e with
      | plan c =>
        cases hb : readied { c with todos := s.1, nextId := s.2 } with
        | none => simp [Event.made, hb] at h
        | some b => exact mem_addedAll (by simpa [Event.made, hb] using h)
      | createTasks c => exact mem_addedAll h
      | change op => cases h
    · exact ih h

/-- **A suggestion is planned once at most, in every run, exactly if it is recognised.** -/
theorem planned_once_iff (text : String) : MadeOnce text where
  once := by
    refine ⟨fun honce => ?_, fun hr s events => (Nat.le_add_right _ _).trans (run_paced hr s events)⟩
    by_contra hr
    -- the same suggestion twice in one batch, on an empty list
    let twice : ReviewContext := { ReviewContext.start "" [] 0 with followUps := List.replicate 2 text }
    have htwo := unrecognised_each_time hr 2 (TodoList.empty, 0) rfl fun n _ => List.not_mem_nil
    have hmade : madeIn (TodoList.empty, 0) [.createTasks twice] =
        addedAll (TodoList.empty, 0) (List.replicate 2 text) := List.append_nil _
    have hle := honce (TodoList.empty, 0) [.createTasks twice]
    rw [hmade, htwo] at hle
    omega
  worded := fun _ _ _ => mem_madeIn
  tasks := fun s c => planFollowUps_items s c.followUps
  planning := by
    intro s c b hb
    simp only [Event.next, Event.made, plan_eq_readied, hb, Option.map_some, Option.getD_some]
    exact planFollowUps_items b c.followUps

/-- a suggestion that begins with a small letter beyond ASCII becomes a todo each time: twice in one batch of a review,
and in two rounds of a work loop -/
theorem planned_twice :
    let review : ReviewContext := { ReviewContext.start "d" [] 0 with followUps := ["é", "é"] }
    let work : WorkContext := { WorkContext.start "g" ⟨[]⟩ [] 0 with followUps := ["é"] }
    let list := TodoList.ofList [.fresh (.given "t") "review" .medium]
    timesMade "é" (madeIn (list, 0) [.createTasks review]) = 2 ∧
      timesMade "é" (madeIn (list, 0) [.plan work, .plan work]) = 2 ∧
      ¬∀ text s events, timesMade text (madeIn s events) ≤ 1 := by
  intro review work list
  have hreview : timesMade "é" (madeIn (list, 0) [.createTasks review]) = 2 := by decide +kernel
  have hwork : timesMade "é" (madeIn (list, 0) [.plan work, .plan work]) = 2 := by decide +kernel
  refine ⟨hreview, hwork, fun honce => ?_⟩
  have hle := honce "é" (list, 0) [.createTasks review]
  omega

end Foreman.Loop

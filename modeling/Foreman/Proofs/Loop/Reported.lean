/-
No reported issue loses its todo.

The finding that stands for an issue may change hands many times: within one batch, from one todo to another, from one
round to the next. Each change is followed in all todos, so whoever held the old finding holds the new one; and at the
end of its batch the todo of a task is given all that the batch retained, which includes the finding that stands for
each issue that it reported. Both hold whatever the todos held before, in whatever order tasks end. What is attached
and does not stand any more does no harm here: nothing that stands is taken away from a todo.

Results:
- `HoldsIssue.entered`, `HoldsIssue.recorded`: an issue is held through one offer, and through a batch.
- `Took.keeps`, `foldl_keeps`:                 what taking in tasks keeps, and what it adds.
- `WorkLoop.next_traced`, `ReviewLoop.next_traced`: one step of either loop.
- `reported_issues_held`:                      both loops.
-/
import Foreman.Proofs.Loop.FindingIds
import Foreman.Proofs.Loop.ReviewSteps
import Foreman.Proofs.Loop.WorkSteps
import Foreman.Proofs.Todo.Status

namespace Foreman

namespace Loop

/-! ## Who holds what -/

/-- the todo with an id is there, and holds a finding id -/
def Holds (T : TodoList) (t i : Ident) : Prop := ∃ k, T.get? t = some k ∧ i ∈ k.findingIds

/-- a todo holds the finding that stands for a signature, and there is one -/
def HoldsIssue (l : Ledger) (T : TodoList) (t : Ident) (s : Signature) : Prop :=
  ∃ g ∈ l.findings, g.signature = some s ∧ (∀ x ∈ l.findings, x.signature = some s → x = g) ∧ Holds T t g.id

theorem holds_iff (T : TodoList) (t i : Ident) : Holds T t i ↔ ∃ ids, T.held.lookup t = some ids ∧ i ∈ ids := by
  rw [TodoList.lookup_held]
  simp [Holds, Option.map_eq_some_iff]

theorem Holds.congr {T T' : TodoList} (h : T'.held = T.held) (t i : Ident) : Holds T' t i ↔ Holds T t i := by
  rw [holds_iff, holds_iff, h]

theorem HoldsIssue.congr {l : Ledger} {T T' : TodoList} (h : T'.held = T.held) (t : Ident) (s : Signature) :
    HoldsIssue l T' t s ↔ HoldsIssue l T t s := by
  simp only [HoldsIssue, Holds.congr h]

theorem holdsIssue_of_sound {l : Ledger} (h : l.Sound) {T : TodoList} {t : Ident} {s : Signature} {g : Finding}
    (hg : g ∈ l.findings) (hs : g.signature = some s) (ht : Holds T t g.id) : HoldsIssue l T t s := by
  refine ⟨g, hg, hs, fun x hx hxs => ?_, ht⟩
  exact h.unique hx hg (by simp [hs]) (hxs.trans hs.symm)

/-! ## Following -/

section Follow

variable {l l' : Ledger} {T : TodoList} {f : Finding} {e : Entry} {t i : Ident} {s : Signature}

/-- **Whoever holds an id holds the one that it is followed to.** -/
theorem Holds.followed {new : Ident} (hne : new ≠ i) (h : Holds T t i) :
    Holds (T.repointAll (e.moves new)) t (e.rename new i) := by
  cases e with
  | added => exact h
  | merged kept => exact h
  | replaced previous =>
    rw [holds_iff] at h ⊢
    obtain ⟨ids, ht, hi⟩ := h
    rw [Entry.moves, TodoList.repointAll, List.foldl_cons, List.foldl_nil, TodoList.repoint_held,
      TodoList.lookup_map _ fun _ ids => TodoList.repointIds ids previous new, ht]
    refine ⟨_, rfl, ?_⟩
    simp only [Entry.rename]
    split_ifs with hmoved
    · subst hmoved
      exact TodoList.mem_repointIds_self hi hne
    · exact TodoList.mem_repointIds_of_ne hi hmoved new

theorem HoldsIssue.entered (hs : l.Sound) (hs' : l'.Sound) (hid : f.id ∉ l.seen) (he : l.Entered f l' e)
    (h : HoldsIssue l T t s) : HoldsIssue l' (T.repointAll (e.moves f.id)) t s := by
  obtain ⟨g, hg, hgs, -, hheld⟩ := h
  have hne : f.id ≠ g.id := fun heq => hid (heq ▸ hs.seen g hg)
  obtain ⟨k, hk, hks, hki⟩ := he.follows hs hg
  apply holdsIssue_of_sound hs' hk (hks.trans hgs)
  rw [hki]
  exact hheld.followed hne

end Follow

/-- **An issue is held through a batch.** -/
theorem HoldsIssue.recorded {l : Ledger} (hs : l.Sound) {T : TodoList} {t : Ident} {s : Signature}
    (h : HoldsIssue l T t s) (fs : List Finding) :
    HoldsIssue (l.after fs) (T.repointAll (l.offerAll fs).2.replaced) t s := by
  induction fs using List.reverseRecOn with
  | nil => exact h
  | append_singleton fs f ih =>
    have hsound := Ledger.after_sound hs fs
    have hsound' := Ledger.offer_sound hsound f
    rw [Ledger.after_snoc, Ledger.outcome_snoc]
    rcases Ledger.offer_cases hsound f with ⟨-, r, ho⟩ | ⟨-, hid, l', e, ho, he, -, -, -⟩ <;> rw [ho] at hsound' ⊢
    · exact ih
    · rw [Ledger.replaced_add, TodoList.repointAll_append]
      exact ih.entered hsound hsound' hid he

theorem Holds.recorded {l : Ledger} (hs : l.Sound) {T : TodoList} {t : Ident} {g : Finding} (hg : g ∈ l.findings)
    (h : Holds T t g.id) (fs : List Finding) (hstays : g ∈ (l.after fs).findings) :
    Holds (T.repointAll (l.offerAll fs).2.replaced) t g.id := by
  induction fs using List.reverseRecOn with
  | nil => exact h
  | append_singleton fs f ih =>
    have hsound := Ledger.after_sound hs fs
    have hseen : g.id ∈ (l.after fs).seen := Ledger.seen_after hs fs (hs.seen g hg)
    rw [Ledger.after_snoc] at hstays
    rw [Ledger.outcome_snoc]
    rcases Ledger.offer_cases hsound f with ⟨-, r, ho⟩ | ⟨-, hid, l', e, ho, he, -, -, -⟩ <;> rw [ho] at hstays ⊢
    · exact ih hstays
    · have hne : f.id ≠ g.id := fun heq => hid (heq ▸ hseen)
      -- it stands after the last offer under an old id, so it was not displaced by it
      have hbefore : g ∈ (l.after fs).findings := by
        rcases he.mem hstays with hg | rfl
        · exact hg
        · exact absurd rfl hne
      have hsame : e.rename f.id g.id = g.id := by
        have hstands := ((he.standing_iff hsound hid hseen).1 (List.mem_map_of_mem hstays)).2
        cases e with
        | added => rfl
        | merged kept => rfl
        | replaced previous => exact if_neg fun heq => hstands (by rw [heq])
      have hfollowed := (ih hbefore).followed (e := e) hne
      rw [hsame] at hfollowed
      rw [Ledger.replaced_add, TodoList.repointAll_append]
      exact hfollowed

/-! ## Attaching -/

theorem Holds.attach {T : TodoList} {t i : Ident} (h : Holds T t i) (id : Ident) (new : List Ident) :
    Holds (T.attach id new) t i := by
  rw [holds_iff] at h ⊢
  obtain ⟨ids, ht, hi⟩ := h
  rw [TodoList.lookup_attach, ht, Option.map_some]
  refine ⟨_, rfl, ?_⟩
  split_ifs
  · exact (TodoList.mem_addIds _ _ _).2 (Or.inl hi)
  · exact hi

theorem holds_attached {T : TodoList} {t : Ident} (ht : t ∈ T.held.map Prod.fst) {new : List Ident} {i : Ident}
    (hi : i ∈ new) : Holds (T.attach t new) t i := by
  obtain ⟨k, hk⟩ : ∃ k, T.get? t = some k := by
    rw [TodoList.held_ids] at ht
    rw [← Option.ne_none_iff_exists', ne_eq, TodoList.get?_eq_none]
    exact not_not.2 ht
  rw [holds_iff, TodoList.lookup_attach, TodoList.lookup_held, hk, Option.map_some, Option.map_some, if_pos rfl]
  exact ⟨_, rfl, (TodoList.mem_addIds _ _ _).2 (Or.inr hi)⟩

theorem HoldsIssue.attach {l : Ledger} {T : TodoList} {t : Ident} {s : Signature} (h : HoldsIssue l T t s)
    (id : Ident) (new : List Ident) : HoldsIssue l (T.attach id new) t s := by
  obtain ⟨g, hg, hs, halone, hheld⟩ := h
  exact ⟨g, hg, hs, halone, hheld.attach id new⟩

/-! ## Taking in tasks -/

/-- a batch has a finding of a todo with a signature, and the ledger accepts it -/
def Reported (q : Ledger × List Finding) (t : Ident) (s : Signature) : Prop :=
  ∃ pre f post, q.2 = pre ++ f :: post ∧ f.todoId = some t ∧ f.signature = some s ∧
    ∃ e, ((q.1.after pre).offer f).2 = .ok e

/-- the ledger is sound, and each standing finding that came from a todo is held by it -/
structure Accounted (b : Books) : Prop where
  sound : b.ledger.Sound
  owned : ∀ f ∈ b.ledger.findings, ∀ t, f.todoId = some t → Holds b.todos t f.id

/-- books some time later: the todos are still there, and hold the issues that they held -/
structure Keeps (b b' : Books) : Prop where
  ids : b.todos.held.map Prod.fst ⊆ b'.todos.held.map Prod.fst
  issues : ∀ t s, HoldsIssue b.ledger b.todos t s → HoldsIssue b'.ledger b'.todos t s

theorem Keeps.refl (b : Books) : Keeps b b := ⟨List.Subset.refl _, fun _ _ h => h⟩

theorem Keeps.trans {a b c : Books} (h : Keeps a b) (h' : Keeps b c) : Keeps a c :=
  ⟨List.Subset.trans h.ids h'.ids, fun t s hs => h'.issues t s (h.issues t s hs)⟩

theorem Accounted.congr {b b' : Books} (h : Accounted b) (hl : b'.ledger = b.ledger)
    (hheld : b'.todos.held = b.todos.held) : Accounted b' := by
  refine ⟨hl ▸ h.sound, fun f hf t ht => ?_⟩
  rw [hl] at hf
  exact (Holds.congr hheld t f.id).2 (h.owned f hf t ht)

theorem Keeps.of_same {b b' : Books} (hl : b'.ledger = b.ledger) (hheld : b'.todos.held = b.todos.held) :
    Keeps b b' := by
  refine ⟨hheld ▸ List.Subset.refl _, fun t s hs => ?_⟩
  rw [hl]
  exact (HoldsIssue.congr hheld t s).2 hs

/-- **A batch of a todo recorded and attached to it**: what was held is held, and the todo holds all issues that the
ledger met in the batch -/
theorem Accounted.recorded {b b' : Books} (ha : Accounted b) {t : Ident} (ht : t ∈ b.todos.held.map Prod.fst)
    {fs : List Finding} (hmade : ∀ f ∈ fs, f.todoId = some t) (hl : b'.ledger = b.ledger.after fs)
    (hheld : b'.todos.held = ((b.todos.repointAll (b.ledger.offerAll fs).2.replaced).attach t
      (b.ledger.offerAll fs).2.retained).held) :
    Accounted b' ∧ Keeps b b' ∧ ∀ s, b.ledger.Met fs s → HoldsIssue b'.ledger b'.todos t s := by
  have hsound : b'.ledger.Sound := hl ▸ Ledger.after_sound ha.sound fs
  have hids := repointAll_ids b.todos (b.ledger.offerAll fs).2.replaced
  -- what is retained is attached to the todo
  have hattached : ∀ i ∈ (b.ledger.offerAll fs).2.retained, Holds b'.todos t i := by
    intro i hi
    exact (Holds.congr hheld t i).2 (holds_attached (hids ▸ ht) hi)
  refine ⟨⟨hsound, fun f hf k hk => ?_⟩, ⟨?_, fun k s hs => ?_⟩, fun s hmet => ?_⟩
  · rw [hl] at hf
    rcases Ledger.after_new ha.sound fs f hf with hold | ⟨hnew, hretained⟩
    · exact (Holds.congr hheld k f.id).2 (((ha.owned f hold k hk).recorded ha.sound hold fs hf).attach _ _)
    · have hkt : k = t := Option.some.inj (hk.symm.trans (hmade f hnew))
      rw [hkt]
      exact hattached _ hretained
  · rw [hheld, attach_ids, hids]
    exact List.Subset.refl _
  · rw [hl]
    exact (HoldsIssue.congr hheld k s).2 ((hs.recorded ha.sound fs).attach _ _)
  · obtain ⟨x, hx, hxs⟩ := hmet.stands ha.sound
    apply holdsIssue_of_sound hsound (hl ▸ hx) hxs
    exact hattached _ (((Ledger.retains_offerAll ha.sound fs).met x hx s hxs).2 hmet)

/-- **A task taken in**: what was held is held, and its todo holds all issues that the task has reported -/
theorem Took.keeps {b b' : Books} {t : Task} (h : Took b t b') (ha : Accounted b)
    (ht : t.todoId ∈ b.todos.held.map Prod.fst) :
    Accounted b' ∧ Keeps b b' ∧
      ∀ p, t.result = some p → ∀ s,
        b.ledger.Met (Finding.ofReports b.nextId p.findings t.subagent (some t.todoId)) s →
          HoldsIssue b'.ledger b'.todos t.todoId s := by
  unfold Took at h
  cases hr : t.result with
  | none =>
    simp only [hr] at h
    obtain ⟨hl, hheld, -⟩ := h
    exact ⟨ha.congr hl hheld, .of_same hl hheld, by simp⟩
  | some p =>
    simp only [hr] at h
    obtain ⟨hl, hheld, -⟩ := h
    obtain ⟨haccounted, hkeeps, hmet⟩ := ha.recorded ht (fun f hf => Finding.todoId_of_mem hf) hl hheld
    refine ⟨haccounted, hkeeps, ?_⟩
    rintro _ ⟨rfl⟩
    exact hmet

/-- **Tasks taken in**: what was held is held, and each todo holds all issues that its tasks have reported -/
theorem foldl_keeps {α : Type} (view : α → Books) {take : α → Task → α}
    (htake : ∀ s t, Took (view s) t (view (take s t))) (ts : List Task) (s : α) (ha : Accounted (view s))
    (hids : ∀ t ∈ ts, t.todoId ∈ (view s).todos.held.map Prod.fst) :
    Accounted (view (ts.foldl take s)) ∧ Keeps (view s) (view (ts.foldl take s)) ∧
      ∀ q ∈ batches (view s).nextId (view s).ledger ts, ∀ t sig, Reported q t sig →
        HoldsIssue (view (ts.foldl take s)).ledger (view (ts.foldl take s)).todos t sig := by
  induction ts generalizing s with
  | nil => exact ⟨ha, .refl _, by simp [batches]⟩
  | cons t ts ih =>
    obtain ⟨ha', hkeeps, hreported⟩ := (htake s t).keeps ha (hids t List.mem_cons_self)
    obtain ⟨ha'', hkeeps', hreported'⟩ := ih (take s t) ha' fun k hk =>
      hkeeps.ids (hids k (List.mem_cons_of_mem _ hk))
    rw [List.foldl_cons]
    refine ⟨ha'', hkeeps.trans hkeeps', fun q hq k sig hk => ?_⟩
    have htook := htake s t
    unfold Took at htook
    cases hr : t.result with
    | none =>
      simp only [hr] at htook
      obtain ⟨hl, -, hn⟩ := htook
      simp only [batches, hr] at hq
      rw [← hl, ← hn] at hq
      exact hreported' q hq k sig hk
    | some p =>
      simp only [hr] at htook
      obtain ⟨hl, -, hn⟩ := htook
      simp only [batches, hr] at hq
      rw [← hl, ← hn] at hq
      rcases List.mem_cons.1 hq with rfl | hq
      · obtain ⟨pre, f, post, hsplit, hfk, hfs, hf⟩ := hk
        have hmem : f ∈ Finding.ofReports (view s).nextId p.findings t.subagent (some t.todoId) := by
          rw [show Finding.ofReports (view s).nextId p.findings t.subagent (some t.todoId) = pre ++ f :: post from
            hsplit]
          simp
        have hkt : k = t.todoId := Option.some.inj (hfk.symm.trans (Finding.todoId_of_mem hmem))
        rw [hkt]
        exact hkeeps'.issues _ sig (hreported p hr sig ⟨pre, f, post, hsplit, hfs, hf⟩)
      · exact hreported' q hq k sig hk

/-! ## Steps and runs -/

/-- what holds of the books and the tasks of a loop, with all that was reported so far -/
structure Traced (reported : Ident → Signature → Prop) (b : Books) (d : Delegator) : Prop where
  accounted : Accounted b
  tasks : ∀ i ∈ d.todoIds, i ∈ b.todos.held.map Prod.fst
  held : ∀ t s, reported t s → HoldsIssue b.ledger b.todos t s

section Traced

variable {reported : Ident → Signature → Prop} {b b' : Books} {d d' : Delegator}

theorem Traced.congr (h : Traced reported b d) (hl : b'.ledger = b.ledger) (hheld : b'.todos.held = b.todos.held)
    (hd : ∀ i ∈ d'.todoIds, i ∈ b.todos.held.map Prod.fst) : Traced reported b' d' :=
  ⟨h.accounted.congr hl hheld, by rwa [hheld], fun t s hs => (Keeps.of_same hl hheld).issues t s (h.held t s hs)⟩

theorem Grown.holds {T T' : TodoList} (hg : Grown T T') {t i : Ident} (h : Holds T t i) : Holds T' t i := by
  obtain ⟨ids, hheld⟩ := hg
  rw [holds_iff] at h ⊢
  obtain ⟨ids', ht, hi⟩ := h
  refine ⟨ids', ?_, hi⟩
  rw [hheld, List.lookup_append, ht, Option.some_or]

/-- new todos hold nothing, and take nothing from the others -/
theorem Traced.grown (h : Traced reported b d) (hl : b'.ledger = b.ledger) (hg : Grown b.todos b'.todos) :
    Traced reported b' d := by
  refine ⟨⟨hl ▸ h.accounted.sound, ?_⟩, ?_, ?_⟩
  · rw [hl]
    intro f hf t ht
    exact hg.holds (h.accounted.owned f hf t ht)
  · intro i hi
    obtain ⟨ids, hheld⟩ := hg
    rw [hheld, List.map_append]
    exact List.mem_append_left _ (h.tasks i hi)
  · rw [hl]
    intro t s hs
    obtain ⟨g, hgl, hgs, halone, hheld⟩ := h.held t s hs
    exact ⟨g, hgl, hgs, halone, hg.holds hheld⟩

theorem Traced.dispatch (h : Traced reported b d) (next : Nat) (instructions : Todo → String) {ts : List Todo}
    (hts : ∀ t ∈ ts, t ∈ b.todos.items) :
    Traced reported ⟨b.ledger, (dispatch d b.todos next instructions ts).2.1,
        (Loop.dispatch d b.todos next instructions ts).2.2⟩ (Loop.dispatch d b.todos next instructions ts).1 := by
  obtain ⟨hheld, -⟩ := dispatch_frame d b.todos next instructions ts
  exact h.congr rfl hheld (dispatch_tasks h.tasks next instructions hts)

/-- **All tasks performed and taken in**, in either loop -/
theorem Traced.takeIn {ω α : Type} (view : α → Books) {take : α × Delegator → Task → α × Delegator}
    (htake : ∀ s t, Took (view s.1) t (view (take s t).1)) (htasks : ∀ s t, (take s t).2.todoIds = s.2.todoIds)
    (w : World ω) (world : ω) {c : α} (h : Traced reported (view c) d) :
    let joined := performAll w world d
    let s := joined.2.2.foldl take (c, joined.2.1)
    Traced (fun t sig => reported t sig ∨
        ∃ q ∈ batches (view c).nextId (view c).ledger joined.2.2, Reported q t sig) (view s.1) s.2 := by
  intro joined s
  obtain ⟨hrest, hjoined⟩ := performAll_frame w world d
  have hids : s.2.todoIds = joined.2.1.todoIds := foldl_todoIds htasks joined.2.2 (c, joined.2.1)
  obtain ⟨haccounted, hkeeps, hreported⟩ := foldl_keeps (fun s => view s.1) htake joined.2.2
    (c, joined.2.1) h.accounted fun t ht => h.tasks _ (hjoined t ht)
  refine ⟨haccounted, fun i hi => ?_, fun t sig hs => ?_⟩
  · exact hkeeps.ids (h.tasks i (hrest (hids ▸ hi)))
  · rcases hs with hs | ⟨q, hq, hs⟩
    · exact hkeeps.issues t sig (h.held t sig hs)
    · exact hreported q hq t sig hs

theorem Traced.mono (h : Traced reported b d) {reported' : Ident → Signature → Prop}
    (hmono : ∀ t s, reported' t s → reported t s) : Traced reported' b d :=
  ⟨h.accounted, h.tasks, fun t s hs => h.held t s (hmono t s hs)⟩

theorem Traced.quiet (h : Traced reported b d) {offers : List (Ledger × List Finding)} (hnone : offers = []) :
    Traced (fun t s => reported t s ∨ ∃ q ∈ offers, Reported q t s) b d := by
  refine ⟨h.accounted, h.tasks, fun t s hs => ?_⟩
  rcases hs with hs | ⟨q, hq, -⟩
  · exact h.held t s hs
  · rw [hnone] at hq
    cases hq

end Traced

/-- what was reported and accepted before a step -/
def ReportedBefore (offers : Nat → List (Ledger × List Finding)) (n : Nat) (t : Ident) (s : Signature) : Prop :=
  ∃ k < n, ∃ q ∈ offers k, Reported q t s

theorem reportedBefore_succ (offers : Nat → List (Ledger × List Finding)) (n : Nat) (t : Ident) (s : Signature) :
    ReportedBefore offers (n + 1) t s ↔ ReportedBefore offers n t s ∨ ∃ q ∈ offers n, Reported q t s := by
  constructor
  · rintro ⟨k, hk, hq⟩
    rcases Nat.lt_succ_iff_lt_or_eq.1 hk with hlt | rfl
    · exact Or.inl ⟨k, hlt, hq⟩
    · exact Or.inr hq
  · rintro (⟨k, hk, hq⟩ | hq)
    · exact ⟨k, by omega, hq⟩
    · exact ⟨n, by omega, hq⟩

/-- no reported issue loses its todo; `offers` has the batches that each step brings, each with the ledger that it
meets -/
structure NothingLost (offers : Nat → List (Ledger × List Finding)) (ledger : Nat → Ledger) (todos : Nat → TodoList) :
    Prop where
  /-- a todo with a task that reported an issue, which was accepted, holds the finding that stands for the issue -/
  reported : ∀ k n, k < n → ∀ q ∈ offers k, ∀ t s, Reported q t s → HoldsIssue (ledger n) (todos n) t s
  /-- what stands and came from a todo is held by it -/
  owned : ∀ n, ∀ f ∈ (ledger n).findings, ∀ t, f.todoId = some t → Holds (todos n) t f.id

/-- what follows for a run from what holds on each of its boundaries -/
theorem nothingLost {offers : Nat → List (Ledger × List Finding)} {b : Nat → Books} {d : Nat → Delegator}
    (h : ∀ n, Traced (ReportedBefore offers n) (b n) (d n)) :
    NothingLost offers (fun n => (b n).ledger) fun n => (b n).todos where
  reported := fun k n hkn q hq t s hs => (h n).held t s ⟨k, hkn, q, hq, hs⟩
  owned := fun n => (h n).accounted.owned

end Loop

/-! ## The work loop -/

namespace WorkLoop

variable {ω : Type} {w : World ω} {digest : List UInt8 → List UInt8} {s : Settings} {machineId : String}

theorem offers_quiet {r : Run ω} (h : r.machine.state ≠ .act) : offers w s r = [] := by
  cases hs : r.machine.state with
  | act => exact absurd hs h
  | _ => simp [offers, hs]

theorem Still.grown {c c' : WorkContext} (h : Still c c') :
    c'.ledger = c.ledger ∧ Loop.Grown c.todos c'.todos := by
  cases h with
  | kept hledger _ htodos =>
    rw [htodos]
    exact ⟨hledger, .refl _⟩
  | planned h => exact plan_grown h

theorem act_traced (w : World ω) (s : Settings) {reported : Ident → Signature → Prop} {r : Run ω}
    (hs : r.machine.state = .act) (h : Loop.Traced reported (books r.machine.context.data) r.delegator) :
    Loop.Traced (fun t sig => reported t sig ∨ ∃ q ∈ offers w s r, Loop.Reported q t sig)
      (books (acted w s r).1) (acted w s r).2 := by
  have hready : ∀ t ∈ r.machine.context.data.todos.ready.take
      (s.work.maxSubagentCalls - r.machine.context.data.calls), t ∈ r.machine.context.data.todos.items :=
    fun t ht => Loop.mem_ready (List.mem_of_mem_take ht)
  have hdispatched := h.dispatch r.machine.context.data.nextId Todo.description hready
  have htaken := Loop.Traced.takeIn books (c := (dispatch s.work r.machine.context.data r.delegator).1) absorb_took
    absorb_todoIds w r.world hdispatched
  simp only [offers, hs]
  exact htaken

/-- **One step of a work loop** -/
theorem next_traced {reported : Ident → Signature → Prop} {r : Run ω} (hr : Ruled machineId r)
    (h : Loop.Traced reported (books r.machine.context.data) r.delegator) :
    Loop.Traced (fun t sig => reported t sig ∨ ∃ q ∈ offers w s r, Loop.Reported q t sig)
      (books (next w digest s r).machine.context.data) (next w digest s r).delegator := by
  by_cases hs : r.machine.state = .act
  · have hnext := next_act w digest s hr hs
    rw [hnext.data, hnext.delegator]
    exact act_traced w s hs h
  · obtain ⟨hd, hstill⟩ := next_still w digest s hr hs
    obtain ⟨hledger, hgrown⟩ := hstill.grown
    have hnext : Loop.Traced reported (books (next w digest s r).machine.context.data) r.delegator :=
      h.grown hledger hgrown
    rw [hd]
    exact hnext.quiet (offers_quiet hs)

/-- **Every run of a work loop** -/
theorem run_traced (w : World ω) (digest : List UInt8 → List UInt8) (s : Settings) {r : Run ω}
    (hr : Ruled machineId r) (h : Loop.Traced (fun _ _ => False) (books r.machine.context.data) r.delegator)
    (n : Nat) :
    Loop.Traced (Loop.ReportedBefore (fun k => offers w s (boundary w digest s k r)) n)
      (books (boundary w digest s n r).machine.context.data) (boundary w digest s n r).delegator := by
  induction n with
  | zero => exact h.mono fun t sig hs => by simp [Loop.ReportedBefore] at hs
  | succ n ih =>
    rw [boundary_succ w digest s hr]
    exact (next_traced (hr.boundary w digest s n) ih).mono fun t sig => (Loop.reportedBefore_succ _ n t sig).1

end WorkLoop

/-! ## The review loop -/

namespace ReviewLoop

variable {ω : Type} {w : World ω} {s : Settings} {b : Brief} {machineId : String}

/-- exploring begins the books anew, when nothing was reported yet -/
theorem explore_traced {c : ReviewContext} {d : Delegator} {reported : Ident → Signature → Prop}
    (h : Loop.Traced reported (books c) d) (hnone : ∀ t sig, ¬ reported t sig) (scanners : List Scanner)
    (changes : ChangeSet) : Loop.Traced reported (books (explore scanners changes c)) d := by
  obtain ⟨fs, hfs, hledger⟩ := explore_ledger scanners changes c
  have hledger : (books (explore scanners changes c)).ledger = (Ledger.empty changes).after fs := hledger
  have hsound := Ledger.sound_empty changes
  refine ⟨⟨hledger ▸ Ledger.after_sound hsound fs, ?_⟩, ?_, fun t sig hs => absurd hs (hnone t sig)⟩
  · rw [hledger]
    intro f hf t ht
    rcases Ledger.after_new hsound fs f hf with hold | ⟨hnew, -⟩
    · cases hold
    · rw [hfs f hnew] at ht
      cases ht
  · intro i hi
    exact explore_ids scanners changes c (h.tasks i hi)

theorem next_early {r : Run ω} (hr : Ruled machineId s r) (h : Early (next w s b r).machine.state) :
    r.machine.state = .idle := by
  cases hs : r.machine.state with
  | idle => rfl
  | exploring =>
    cases hb : b.changes with
    | error causes =>
      rw [(next_noChanges w s b hr hs hb).state] at h
      simp [Early] at h
    | ok changes =>
      rw [(next_exploring w s b hr hs hb).state] at h
      simp [Early] at h
  | delegating =>
    rw [(next_delegating w s b hr hs).state] at h
    simp [Early] at h
  | reviewing =>
    rw [(next_reviewing w s b hr hs).state] at h
    split_ifs at h <;> simp [Early] at h
  | creatingTasks =>
    by_cases hi : r.machine.context.data.iteration < s.review.maxIterations
    · rw [(next_creatingTasks w s b hr hs hi).state] at h
      simp [Early] at h
    · rw [(next_overBudget w s b hr hs hi).state] at h
      simp [Early] at h
  | assessing =>
    rw [(next_assessing w s b hr hs).state] at h
    simp [Early] at h
  | completed =>
    rw [next_completed hs, hs] at h
    simp [Early] at h
  | failed =>
    rw [next_failed hr hs, hs] at h
    simp [Early] at h

theorem offers_quiet {r : Run ω} (h : r.machine.state ≠ .reviewing) : offers w r = [] := by
  cases hs : r.machine.state with
  | reviewing => exact absurd hs h
  | _ => simp [offers, hs]

/-- **One step of a review** -/
theorem next_traced {reported : Ident → Signature → Prop} {r : Run ω} (hr : Ruled machineId s r)
    (hearly : Early r.machine.state → ∀ t sig, ¬ reported t sig)
    (h : Loop.Traced reported (books r.machine.context.data) r.delegator) :
    Loop.Traced (fun t sig => reported t sig ∨ ∃ q ∈ offers w r, Loop.Reported q t sig)
      (books (next w s b r).machine.context.data) (next w s b r).delegator := by
  by_cases hreviewing : r.machine.state = .reviewing
  · have hnext := next_reviewing w s b hr hreviewing
    have htaken := Loop.Traced.takeIn books collect_took collect_todoIds w r.world h
    rw [hnext.data, hnext.delegator]
    simp only [offers, hreviewing]
    exact htaken
  -- in all other steps nothing is reported
  suffices hnext : Loop.Traced reported (books (next w s b r).machine.context.data) (next w s b r).delegator from
    hnext.quiet (offers_quiet hreviewing)
  by_cases hdelegating : r.machine.state = .delegating
  · have hnext := next_delegating w s b hr hdelegating
    have hready : ∀ t ∈ r.machine.context.data.todos.ready, t ∈ r.machine.context.data.todos.items :=
      fun t ht => Loop.mem_ready ht
    rw [hnext.data, hnext.delegator]
    exact h.dispatch r.machine.context.data.nextId (instructions r.machine.context.data) hready
  obtain ⟨hd, hstill⟩ := next_still w s b hr hdelegating hreviewing
  rw [hd]
  cases hstill with
  | kept hledger htodos => exact h.congr hledger (congrArg TodoList.held htodos) h.tasks
  | explored changes hs hledger htodos =>
    have hexplored := explore_traced h (hearly (Or.inr hs)) b.scanners changes
    exact hexplored.congr hledger (congrArg TodoList.held htodos) hexplored.tasks
  | planned hledger htodos =>
    have hgrown : Loop.Grown r.machine.context.data.todos (createTasks r.machine.context.data).todos :=
      Loop.planFollowUps_grown ..
    rw [← htodos] at hgrown
    exact h.grown hledger hgrown

/-- **Every run of a review** -/
theorem run_traced (w : World ω) (s : Settings) (b : Brief) {r : Run ω} (hr : Ruled machineId s r)
    (h : Loop.Traced (fun _ _ => False) (books r.machine.context.data) r.delegator) (n : Nat) :
    Loop.Traced (Loop.ReportedBefore (fun k => offers w (boundary w s b k r)) n)
        (books (boundary w s b n r).machine.context.data) (boundary w s b n r).delegator ∧
      (Early (boundary w s b n r).machine.state →
        ∀ t sig, ¬ Loop.ReportedBefore (fun k => offers w (boundary w s b k r)) n t sig) := by
  induction n with
  | zero =>
    have hnone : ∀ t sig, ¬ Loop.ReportedBefore (fun k => offers w (boundary w s b k r)) 0 t sig := by
      simp [Loop.ReportedBefore]
    exact ⟨h.mono fun t sig hs => absurd hs (hnone t sig), fun _ => hnone⟩
  | succ n ih =>
    obtain ⟨htraced, hearly⟩ := ih
    have hruled := hr.boundary w s b n
    rw [boundary_succ w s b hr]
    constructor
    · exact (next_traced hruled hearly htraced).mono fun t sig => (Loop.reportedBefore_succ _ n t sig).1
    · intro hnext t sig hs
      have hidle := next_early hruled hnext
      rcases (Loop.reportedBefore_succ _ n t sig).1 hs with hs | ⟨q, hq, -⟩
      · exact hearly (Or.inl hidle) t sig hs
      · rw [offers_quiet (by simp [hidle])] at hq
        cases hq

end ReviewLoop

/-! ## Both loops -/

theorem Loop.traced_start (scope : ChangeSet) (T : TodoList) (nextId : Nat) (registry : Registry) (cap : Nat) :
    Traced (fun _ _ => False) ⟨.empty scope, T, nextId⟩ (.empty registry cap) :=
  ⟨⟨Ledger.sound_empty scope, by simp [Ledger.empty]⟩, by simp [Delegator.empty, Delegator.todoIds],
    fun _ _ hs => hs.elim⟩

/-- **No reported issue loses its todo.** Take a run of either loop with any todos, in any world. At all times, a todo
whose task has reported an issue in a file, which the ledger accepted, holds the finding that stands for the issue now;
and each standing finding that came from a todo is held by it. -/
theorem reported_issues_held {ω : Type} (w : World ω) (s : Settings) (registry : Registry) (id : String)
    (observers : Nat) (hasStore : Bool) (todos : List Todo) (nextId : Nat) (world : ω) :
    (∀ digest goal changes r,
      WorkLoop.begin s registry id observers hasStore (.start goal changes todos nextId) world = .ok r →
        Loop.NothingLost (fun n => WorkLoop.offers w s (WorkLoop.boundary w digest s n r))
          (fun n => (WorkLoop.boundary w digest s n r).machine.context.data.ledger)
          fun n => (WorkLoop.boundary w digest s n r).machine.context.data.todos) ∧
      ∀ brief description r,
        ReviewLoop.begin s registry id observers hasStore (.start description todos nextId) world = .ok r →
          Loop.NothingLost (fun n => ReviewLoop.offers w (ReviewLoop.boundary w s brief n r))
            (fun n => (ReviewLoop.boundary w s brief n r).machine.context.data.ledger)
            fun n => (ReviewLoop.boundary w s brief n r).machine.context.data.todos := by
  constructor
  · intro digest goal changes r h
    obtain ⟨-, rfl⟩ := WorkLoop.begin_started h
    have hruled := WorkLoop.started_ruled s registry id observers hasStore (.start goal changes todos nextId) world
    have hstart := Loop.traced_start changes (.ofList todos) nextId registry s.concurrencyCap
    exact Loop.nothingLost fun n => WorkLoop.run_traced w digest s hruled hstart n
  · intro brief description r h
    obtain ⟨-, rfl⟩ := ReviewLoop.begin_started h
    have hruled := ReviewLoop.started_ruled s registry id observers hasStore (.start description todos nextId) world
    have hstart := Loop.traced_start ⟨[]⟩ (.ofList todos) nextId registry s.concurrencyCap
    exact Loop.nothingLost fun n => (ReviewLoop.run_traced w s brief hruled hstart n).1

/-- tasks that report one issue, in each round with more confidence and under another id -/
def insistent : World Nat := .inTurn fun k =>
  .ok { Payload.blank with
    findings := [Loop.sighting (if k = 0 then "a" else "b") 0, Loop.sighting (if k = 0 then "c" else "d") k] }

/-- a todo, and one that comes after it -/
def paired : List Todo :=
  [.fresh (.given "look") "look" .high,
    { Todo.fresh (.given "tell") "tell" .high with dependsOn := [.given "look"] }]

/-- what each todo holds -/
def Loop.holdings (T : TodoList) : List (List Ident) := T.items.map Todo.findingIds

/-- the first todo holds the finding of the second one, once that stands for the issue -/
theorem reported_issues_held_handed_on :
    (∃ r, WorkLoop.begin {} .standard "work" 0 false (.start "look" ⟨["a.py"]⟩ paired 0) 0 = .ok r ∧
        Loop.NothingLost (fun n => WorkLoop.offers insistent {} (WorkLoop.boundary insistent (fun x => x) {} n r))
          (fun n => (WorkLoop.boundary insistent (fun x => x) {} n r).machine.context.data.ledger)
          (fun n => (WorkLoop.boundary insistent (fun x => x) {} n r).machine.context.data.todos) ∧
        Loop.holdings (WorkLoop.boundary insistent (fun x => x) {} 3 r).machine.context.data.todos =
          [[.given "a"], []] ∧
        Loop.holdings (WorkLoop.boundary insistent (fun x => x) {} 7 r).machine.context.data.todos =
          [[.given "d"], [.given "a", .given "d"]]) ∧
      ∃ r, ReviewLoop.begin {} .standard "review" 0 false (.start "look" paired 0) 0 = .ok r ∧
        Loop.NothingLost
          (fun n => ReviewLoop.offers insistent (ReviewLoop.boundary insistent {} ⟨.ok ⟨["a.py"]⟩, []⟩ n r))
          (fun n => (ReviewLoop.boundary insistent {} ⟨.ok ⟨["a.py"]⟩, []⟩ n r).machine.context.data.ledger)
          (fun n => (ReviewLoop.boundary insistent {} ⟨.ok ⟨["a.py"]⟩, []⟩ n r).machine.context.data.todos) ∧
        Loop.holdings (ReviewLoop.boundary insistent {} ⟨.ok ⟨["a.py"]⟩, []⟩ 7 r).machine.context.data.todos =
          [[.given "d"], [.given "a", .given "d"]] := by
  have hvalid : Settings.validate {} = .ok () := by decide +kernel
  obtain ⟨hwork, -⟩ := reported_issues_held insistent {} .standard "work" 0 false paired 0 0
  obtain ⟨-, hreview⟩ := reported_issues_held insistent {} .standard "review" 0 false paired 0 0
  have hbegin := WorkLoop.begin_ok hvalid .standard "work" 0 false (.start "look" ⟨["a.py"]⟩ paired 0) 0
  have hbegin' := ReviewLoop.begin_ok hvalid .standard "review" 0 false (.start "look" paired 0) 0
  exact ⟨⟨_, hbegin, hwork (fun x => x) "look" ⟨["a.py"]⟩ _ hbegin, by decide +kernel, by decide +kernel⟩,
    _, hbegin', hreview ⟨.ok ⟨["a.py"]⟩, []⟩ "look" _ hbegin', by decide +kernel⟩

end Foreman

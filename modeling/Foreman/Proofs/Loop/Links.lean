/-
The finding ids of todos, while findings come in.

Recording a batch first follows displaced ids in all todos and then attaches the retained ids to the todo of the task.
Following keeps every link as it was: what pointed to a standing finding does so still, what dangled still dangles.
The retained ids are attached as they are, also those that the same batch displaced again. So the links hold after a
task exactly if they held before and its batch does not overtake itself. Nothing else that a loop does touches finding
ids.

Results:
- `record_linked`: recording a batch keeps the links as they were.
- `attach_linked`: attaching keeps them if the new ids stand.
- `foldl_took`:    the links after taking in a list of tasks.
- `Consistent.dispatch`, `Consistent.takeIn`: the two halves of a round.
-/
import Mathlib.Tactic
import Foreman.Loop.Basic
import Foreman.Proofs.Ledger.Batch
import Foreman.Proofs.Loop.Frame

namespace Foreman

theorem Entry.rename_inj {e : Entry} {new : Ident} {ids : List Ident} (hnew : new ∉ ids) :
    ∀ i ∈ ids, ∀ j ∈ ids, e.rename new i = e.rename new j → i = j := by
  intro i hi j hj h
  cases e with
  | replaced previous =>
    simp only [rename] at h
    split_ifs at h with hip hjp hjp
    · rw [hip, hjp]
    · exact absurd (h ▸ hj) hnew
    · exact absurd (h ▸ hi) hnew
    · exact h
  | added => exact h
  | merged kept => exact h

namespace Loop

/-- no finding id of a todo dangles: each is the id of a standing finding -/
def Linked (l : Ledger) (T : TodoList) : Prop := ∀ t ∈ T.items, ∀ i ∈ t.findingIds, i ∈ l.standing

instance (l : Ledger) (T : TodoList) : Decidable (Linked l T) := by unfold Linked; infer_instance

/-- the ledger is sound, the finding ids of todos were accepted by it, and no todo holds one twice -/
structure Tidy (l : Ledger) (T : TodoList) : Prop where
  sound : l.Sound
  nodup : ∀ p ∈ T.held, p.2.Nodup
  seen : ∀ p ∈ T.held, ∀ i ∈ p.2, i ∈ l.seen

theorem linked_iff (l : Ledger) (T : TodoList) : Linked l T ↔ ∀ p ∈ T.held, ∀ i ∈ p.2, i ∈ l.standing := by
  simp [Linked, TodoList.held]

theorem Linked.congr {l : Ledger} {T T' : TodoList} (h : T'.held = T.held) : Linked l T' ↔ Linked l T := by
  rw [linked_iff, linked_iff, h]

theorem Tidy.congr {l : Ledger} {T T' : TodoList} (h : T'.held = T.held) (ht : Tidy l T) : Tidy l T' :=
  ⟨ht.sound, h ▸ ht.nodup, h ▸ ht.seen⟩

/-! ## Recording a batch -/

section Record

variable {l l' : Ledger} {T : TodoList} {f : Finding} {e : Entry}

theorem moves_held (h : Tidy l T) (hid : f.id ∉ l.seen) :
    (T.repointAll (e.moves f.id)).held = T.held.map fun p => (p.1, p.2.map (e.rename f.id)) := by
  cases e with
  | replaced previous =>
    rw [Entry.moves, TodoList.repointAll, List.foldl_cons, List.foldl_nil, TodoList.repoint_held]
    refine List.map_congr_left fun p hp => ?_
    rw [TodoList.repointIds_eq_map (h.nodup p hp) fun hi => hid (h.seen p hp _ hi)]
    rfl
  | added => simp [Entry.moves, TodoList.repointAll]
  | merged kept => simp [Entry.moves, TodoList.repointAll]

/-- an accepted finding: the todos that follow it are tidy again, and linked if they were -/
theorem moves_linked (h : Tidy l T) (hid : f.id ∉ l.seen) (he : l.Entered f l' e) (hs' : l'.Sound)
    (hseen : l'.seen = l.seen ++ [f.id]) :
    Tidy l' (T.repointAll (e.moves f.id)) ∧ (Linked l' (T.repointAll (e.moves f.id)) ↔ Linked l T) := by
  have hheld := moves_held (e := e) h hid
  refine ⟨⟨hs', ?_, ?_⟩, ?_⟩
  · rw [hheld]
    simp only [List.forall_mem_map]
    intro p hp
    have hnew : f.id ∉ p.2 := fun hi => hid (h.seen p hp _ hi)
    exact List.Nodup.map_on (fun i hi j hj => Entry.rename_inj hnew i hi j hj) (h.nodup p hp)
  · rw [hheld, hseen]
    simp only [List.forall_mem_map]
    intro p hp i hi
    have hold : i ∈ l.seen := h.seen p hp i hi
    cases e with
    | replaced previous =>
      simp only [Entry.rename]
      split_ifs
      · simp
      · simp [hold]
    | added => simp [hold]
    | merged kept => simp [hold]
  · rw [linked_iff, linked_iff, hheld]
    simp only [List.forall_mem_map]
    exact forall₂_congr fun p hp => forall₂_congr fun i hi => he.rename_standing h.sound hid (h.seen p hp i hi)

end Record

/-- **Recording a batch keeps the links as they were.** -/
theorem record_linked {l : Ledger} {T : TodoList} (h : Tidy l T) (fs : List Finding) :
    Tidy (l.after fs) (T.repointAll (l.offerAll fs).2.replaced) ∧
      (Linked (l.after fs) (T.repointAll (l.offerAll fs).2.replaced) ↔ Linked l T) := by
  induction fs using List.reverseRecOn with
  | nil => exact ⟨h, Iff.rfl⟩
  | append_singleton fs f ih =>
    obtain ⟨ht, hl⟩ := ih
    have hs' := Ledger.offer_sound ht.sound f
    rw [Ledger.after_snoc, Ledger.outcome_snoc]
    rcases Ledger.offer_cases ht.sound f with ⟨-, r, ho⟩ | ⟨-, hid, l', e, ho, he, -, hseen, -⟩
    · rw [ho] at hs' ⊢
      exact ⟨⟨hs', ht.nodup, ht.seen⟩, hl⟩
    · rw [ho] at hs' ⊢
      rw [Ledger.replaced_add, TodoList.repointAll_append]
      obtain ⟨ht', hl'⟩ := moves_linked ht hid he hs' hseen
      exact ⟨ht', hl'.trans hl⟩

/-! ## Attaching ids -/

theorem attach_tidy {l : Ledger} {T : TodoList} (h : Tidy l T) {new : List Ident} (hnew : ∀ i ∈ new, i ∈ l.seen)
    (id : Ident) : Tidy l (T.attach id new) := by
  have hheld := TodoList.attach_held T id new
  refine ⟨h.sound, ?_, ?_⟩ <;> rw [hheld] <;> simp only [List.forall_mem_map] <;> intro p hp
  · split_ifs
    · exact TodoList.nodup_addIds (h.nodup p hp) new
    · exact h.nodup p hp
  · intro i hi
    split_ifs at hi
    · exact ((TodoList.mem_addIds _ _ _).1 hi).elim (h.seen p hp i) (hnew i)
    · exact h.seen p hp i hi

theorem attach_ids (T : TodoList) (id : Ident) (new : List Ident) :
    (T.attach id new).held.map Prod.fst = T.held.map Prod.fst := by
  rw [TodoList.attach_held, List.map_map]
  refine List.map_congr_left fun p _ => ?_
  simp only [Function.comp_apply]
  split_ifs <;> rfl

/-- **Attaching ids to a todo keeps the links if the ids stand, and breaks them if one does not.** -/
theorem attach_linked (l : Ledger) {T : TodoList} {id : Ident} (hid : id ∈ T.held.map Prod.fst) (new : List Ident) :
    Linked l (T.attach id new) ↔ Linked l T ∧ ∀ i ∈ new, i ∈ l.standing := by
  obtain ⟨p, hp, rfl⟩ := List.mem_map.1 hid
  rw [linked_iff, linked_iff, TodoList.attach_held]
  simp only [List.forall_mem_map]
  constructor
  · refine fun hall => ⟨fun q hq i hi => ?_, fun i hi => ?_⟩
    · refine hall q hq i ?_
      split_ifs
      · exact (TodoList.mem_addIds _ _ _).2 (Or.inl hi)
      · exact hi
    · refine hall p hp i ?_
      rw [if_pos rfl]
      exact (TodoList.mem_addIds _ _ _).2 (Or.inr hi)
  · rintro ⟨hold, hadd⟩ q hq i hi
    split_ifs at hi
    · exact ((TodoList.mem_addIds _ _ _).1 hi).elim (hold q hq i) (hadd i)
    · exact hold q hq i hi

/-! ## Taking in tasks -/

/-- the batches that tasks bring, each with the ledger that it meets; spare ids are minted from `next` on -/
def batches (next : Nat) (l : Ledger) : List Task → List (Ledger × List Finding)
  | [] => []
  | t :: ts =>
    match t.result with
    | some p =>
      let fs := Finding.ofReports next p.findings t.subagent (some t.todoId)
      (l, fs) :: batches (next + p.findings.length) (l.after fs) ts
    | none => batches next l ts

/-- what either loop has of a context for its findings -/
structure Books where
  ledger : Ledger
  todos : TodoList
  nextId : Nat

/-- what taking in a task does to the books: its batch is recorded and the retained ids are attached; the status of
todos is left open -/
def Took (b : Books) (t : Task) (b' : Books) : Prop :=
  match t.result with
  | some p =>
    let fs := Finding.ofReports b.nextId p.findings t.subagent (some t.todoId)
    b'.ledger = b.ledger.after fs ∧
      b'.todos.held = ((b.todos.repointAll (b.ledger.offerAll fs).2.replaced).attach t.todoId
        (b.ledger.offerAll fs).2.retained).held ∧
      b'.nextId = b.nextId + p.findings.length
  | none => b'.ledger = b.ledger ∧ b'.todos.held = b.todos.held ∧ b'.nextId = b.nextId

theorem repointAll_ids (T : TodoList) (ps : List (Ident × Ident)) :
    (T.repointAll ps).held.map Prod.fst = T.held.map Prod.fst := by
  induction ps using List.reverseRecOn with
  | nil => rfl
  | append_singleton ps p ih =>
    rw [TodoList.repointAll_append, ← ih, TodoList.repointAll, List.foldl_cons, List.foldl_nil,
      TodoList.repoint_held, List.map_map]
    rfl

/-- taking in a task: the links hold after it exactly if they held and its batch does not overtake itself -/
theorem Took.linked {b b' : Books} {t : Task} (h : Took b t b') (ht : Tidy b.ledger b.todos)
    (hid : t.todoId ∈ b.todos.held.map Prod.fst) :
    Tidy b'.ledger b'.todos ∧ b'.todos.held.map Prod.fst = b.todos.held.map Prod.fst ∧
      ∀ ts, (Linked b'.ledger b'.todos ∧ ∀ q ∈ batches b'.nextId b'.ledger ts, ¬ q.1.Overtakes q.2) ↔
        Linked b.ledger b.todos ∧ ∀ q ∈ batches b.nextId b.ledger (t :: ts), ¬ q.1.Overtakes q.2 := by
  unfold Took at h
  cases hr : t.result with
  | none =>
    simp only [hr] at h
    obtain ⟨hl, hheld, hn⟩ := h
    rw [hl, hn, Linked.congr hheld]
    exact ⟨ht.congr hheld, by rw [hheld], fun ts => by simp only [batches, hr]⟩
  | some p =>
    simp only [hr] at h
    obtain ⟨hl, hheld, hn⟩ := h
    generalize hfs : Finding.ofReports b.nextId p.findings t.subagent (some t.todoId) = fs at hl hheld
    obtain ⟨htidy, hrec⟩ := record_linked ht fs
    have hret := Ledger.retains_offerAll ht.sound fs
    have hids := repointAll_ids b.todos (b.ledger.offerAll fs).2.replaced
    rw [hl, hn, Linked.congr hheld, attach_linked _ (hids ▸ hid), hrec, hret.standing]
    refine ⟨(attach_tidy htidy hret.seen t.todoId).congr hheld, by rw [hheld, attach_ids, hids], fun ts => ?_⟩
    simp only [batches, hr, hfs, List.forall_mem_cons, and_assoc]

/-- **The links after taking in a list of tasks** hold exactly if they held before and no batch overtakes itself. -/
theorem foldl_took {α : Type} {view : α → Books} {take : α → Task → α}
    (htake : ∀ s t, Took (view s) t (view (take s t))) (ts : List Task) (s : α)
    (ht : Tidy (view s).ledger (view s).todos) (hids : ∀ t ∈ ts, t.todoId ∈ (view s).todos.held.map Prod.fst) :
    Tidy (view (ts.foldl take s)).ledger (view (ts.foldl take s)).todos ∧
      (view (ts.foldl take s)).todos.held.map Prod.fst = (view s).todos.held.map Prod.fst ∧
      (Linked (view (ts.foldl take s)).ledger (view (ts.foldl take s)).todos ↔ Linked (view s).ledger (view s).todos ∧
        ∀ q ∈ batches (view s).nextId (view s).ledger ts, ¬ q.1.Overtakes q.2) := by
  induction ts generalizing s with
  | nil => exact ⟨ht, rfl, by simp [batches]⟩
  | cons t ts ih =>
    obtain ⟨ht', hids', hl'⟩ := (htake s t).linked ht (hids t List.mem_cons_self)
    obtain ⟨ht'', hids'', hl''⟩ := ih (take s t) ht' fun k hk => by
      rw [hids']
      exact hids k (List.mem_cons_of_mem _ hk)
    exact ⟨ht'', hids''.trans hids', hl''.trans (hl' ts)⟩

/-! ## The parts of a loop -/

/-- ledger, todos and tasks are consistent: the finding ids are tidy, and each task is about a todo that is there -/
structure Consistent (l : Ledger) (T : TodoList) (d : Delegator) : Prop where
  tidy : Tidy l T
  tasks : ∀ i ∈ d.todoIds, i ∈ T.held.map Prod.fst

theorem Grown.linked {l : Ledger} {T T' : TodoList} (h : Grown T T') : Linked l T' ↔ Linked l T := by
  obtain ⟨ids, hheld⟩ := h
  rw [linked_iff, linked_iff, hheld, List.forall_mem_append]
  exact and_iff_left (by simp)

theorem Grown.consistent {l : Ledger} {T T' : TodoList} {d : Delegator} (h : Grown T T') (hc : Consistent l T d) :
    Consistent l T' d := by
  obtain ⟨ids, hheld⟩ := h
  refine ⟨⟨hc.tidy.sound, ?_, ?_⟩, fun i hi => ?_⟩
  · rw [hheld, List.forall_mem_append]
    exact ⟨hc.tidy.nodup, by simp⟩
  · rw [hheld, List.forall_mem_append]
    exact ⟨hc.tidy.seen, by simp⟩
  · rw [hheld, List.map_append]
    exact List.mem_append_left _ (hc.tasks i hi)

/-- no todo holds a finding id -/
def Blank (T : TodoList) : Prop := ∀ p ∈ T.held, p.2 = []

theorem Blank.tidy {T : TodoList} (h : Blank T) {l : Ledger} (hl : l.Sound) : Tidy l T :=
  ⟨hl, fun p hp => by simp [h p hp], fun p hp => by simp [h p hp]⟩

theorem Blank.consistent {T : TodoList} (h : Blank T) {l : Ledger} (hl : l.Sound) {d : Delegator}
    (hd : d.todoIds = []) : Consistent l T d :=
  ⟨h.tidy hl, by simp [hd]⟩

theorem Blank.linked {T : TodoList} (h : Blank T) (l : Ledger) : Linked l T := by
  rw [linked_iff]
  exact fun p hp => by simp [h p hp]

theorem Blank.grown {T T' : TodoList} (h : Blank T) (hg : Grown T T') : Blank T' := by
  obtain ⟨ids, hheld⟩ := hg
  rw [Blank, hheld, List.forall_mem_append]
  exact ⟨h, by simp⟩

theorem blank_ofList {ts : List Todo} (h : ∀ t ∈ ts, t.findingIds = []) : Blank (.ofList ts) :=
  Blank.grown (by simp [Blank, TodoList.held, TodoList.empty]) (extend_grown .empty h)

theorem Blank.repointAll {T : TodoList} (h : Blank T) (ps : List (Ident × Ident)) : Blank (T.repointAll ps) := by
  induction ps using List.reverseRecOn with
  | nil => exact h
  | append_singleton ps p ih =>
    rw [TodoList.repointAll_append, TodoList.repointAll, List.foldl_cons, List.foldl_nil, Blank, TodoList.repoint_held]
    simp only [List.forall_mem_map]
    intro q hq
    rw [ih q hq]
    rfl

theorem dispatch_tasks {T : TodoList} {d : Delegator} (h : ∀ i ∈ d.todoIds, i ∈ T.held.map Prod.fst) (next : Nat)
    (instructions : Todo → String) {ts : List Todo} (hts : ∀ t ∈ ts, t ∈ T.items) :
    ∀ i ∈ (dispatch d T next instructions ts).1.todoIds, i ∈ T.held.map Prod.fst := by
  intro i hi
  rcases (dispatch_frame d T next instructions ts).2 i hi with hi | hi
  · exact h i hi
  · obtain ⟨t, ht, rfl⟩ := List.mem_map.1 hi
    rw [TodoList.held, List.map_map]
    exact List.mem_map.2 ⟨t, hts t ht, rfl⟩

theorem Consistent.dispatch {l : Ledger} {T : TodoList} {d : Delegator} (hc : Consistent l T d) (next : Nat)
    (instructions : Todo → String) (ts : List Todo) (hts : ∀ t ∈ ts, t ∈ T.items) :
    Consistent l (dispatch d T next instructions ts).2.1 (dispatch d T next instructions ts).1 ∧
      (Linked l (Loop.dispatch d T next instructions ts).2.1 ↔ Linked l T) := by
  obtain ⟨hheld, -⟩ := dispatch_frame d T next instructions ts
  refine ⟨⟨hc.tidy.congr hheld, ?_⟩, Linked.congr hheld⟩
  rw [hheld]
  exact dispatch_tasks hc.tasks next instructions hts

theorem foldl_todoIds {α : Type} {take : α × Delegator → Task → α × Delegator}
    (htasks : ∀ s t, (take s t).2.todoIds = s.2.todoIds) (ts : List Task) (s : α × Delegator) :
    (ts.foldl take s).2.todoIds = s.2.todoIds := by
  induction ts generalizing s with
  | nil => rfl
  | cons t ts ih => exact (ih (take s t)).trans (htasks s t)

theorem Consistent.takeIn {ω α : Type} (view : α → Books) {take : α × Delegator → Task → α × Delegator}
    (htake : ∀ s t, Took (view s.1) t (view (take s t).1)) (htasks : ∀ s t, (take s t).2.todoIds = s.2.todoIds)
    (w : World ω) (world : ω) {c : α} {d : Delegator} (hc : Consistent (view c).ledger (view c).todos d) :
    let joined := performAll w world d
    let s := joined.2.2.foldl take (c, joined.2.1)
    Consistent (view s.1).ledger (view s.1).todos s.2 ∧
      (Linked (view s.1).ledger (view s.1).todos ↔ Linked (view c).ledger (view c).todos ∧
        ∀ q ∈ batches (view c).nextId (view c).ledger joined.2.2, ¬ q.1.Overtakes q.2) := by
  intro joined s
  obtain ⟨hrest, hjoined⟩ := performAll_frame w world d
  have hids : s.2.todoIds = joined.2.1.todoIds := foldl_todoIds htasks joined.2.2 (c, joined.2.1)
  obtain ⟨htidy, hheld, hlinked⟩ := foldl_took htake joined.2.2 (c, joined.2.1) hc.tidy
    fun t ht => hc.tasks _ (hjoined t ht)
  refine ⟨⟨htidy, fun i hi => ?_⟩, hlinked⟩
  rw [hheld]
  exact hc.tasks i (hrest (hids ▸ hi))

end Loop

end Foreman

/-
No todo is begun before all that it depends on is completed.

What a loop hands to its delegator is ready, and a ready todo is grounded if the todos are in order. Dispatching it,
taking in its task and putting it back move no other todo; planning adds pending ones. So the todos stay in order
through every step, also halfway through one, and whatever ends the tasks have. A todo is completed by a task with a
payload only, so behind each dependency of a todo that is handed over stands a task that succeeded in an earlier step.

Results:
- `Heedful.dispatch`, `Heedful.takeIn`:        the two halves of a round.
- `WorkLoop.heeded`, `ReviewLoop.heeded`:      one step of either loop.
- `respects`:                                  what follows for a run from what holds of each of its steps.
- `dependencies_respected`:                    both loops, from pending todos on.
-/
import Foreman.Proofs.Loop.AtMostOnce
import Foreman.Proofs.Todo.Dependencies

namespace Foreman

/-! ## Tasks that are what they seem -/

namespace Delegator

/-- the running tasks have started, and the finished ones are completed -/
structure Tracked (d : Delegator) : Prop where
  running : ∀ p ∈ d.running, p.2.Started
  finished : ∀ t ∈ d.finished, t.status = .completed

theorem empty_tracked (registry : Registry) (cap : Nat) : (empty registry cap).Tracked :=
  ⟨by simp [empty], by simp [empty]⟩

theorem Tracked.retire {d : Delegator} (h : d.Tracked) (n : Nat) : (d.retire n).1.Tracked := by
  constructor
  · intro p hp
    exact h.running p (retire_running d n hp)
  · exact h.finished

theorem Tracked.finish {d : Delegator} (h : d.Tracked) (n : Nat) (outcome : Except GuardError Payload) (now : Nat) :
    (d.finish n outcome now).1.Tracked := by
  unfold Delegator.finish
  cases hl : d.running.lookup n with
  | none => exact h
  | some task =>
    have hretired := h.retire n
    have hstatus : task.status = .inProgress := (h.running _ (mem_of_lookup hl)).status
    have hcompleted : ((task.complete outcome now).toOption.getD task).status = .completed := by
      rw [Task.complete_inProgress hstatus]
      cases outcome <;> rfl
    dsimp only
    split_ifs
    · exact ⟨hretired.running, hretired.finished⟩
    · refine ⟨hretired.running, fun t ht => ?_⟩
      rcases List.mem_append.1 ht with ht | ht
      · exact hretired.finished t ht
      · rw [List.mem_singleton.1 ht]
        exact hcompleted

theorem Tracked.crash {d : Delegator} (h : d.Tracked) (n : Nat) : (d.crash n).1.Tracked := by
  unfold Delegator.crash
  cases d.running.lookup n with
  | none => exact h
  | some task => exact h.retire n

theorem Tracked.mark {d : Delegator} (h : d.Tracked) (id : Ident) : (d.mark id).Tracked := by
  unfold Delegator.mark
  split_ifs
  · exact h
  · exact ⟨h.running, h.finished⟩

end Delegator

namespace Loop

open TodoList (InOrder Later Met Needs Widened)

theorem settle_tracked {d : Delegator} (h : d.Tracked) (endings : Endings) (now : Nat) :
    (settle d endings now).Tracked := by
  induction endings using List.reverseRecOn with
  | nil => exact h
  | append_singleton endings e ih =>
    rw [Loop.settle, List.foldl_append, List.foldl_cons, List.foldl_nil, ← Loop.settle]
    cases e.2 with
    | some outcome => exact ih.finish e.1 outcome now
    | none => exact ih.crash e.1

/-! ## Todos and tasks -/

/-- the todos are in order with the tasks of a delegator -/
structure Heedful (T : TodoList) (d : Delegator) : Prop where
  order : T.InOrder d.todoIds
  tracked : d.Tracked

/-- todos some time later, of which no other one is completed -/
structure Waiting (T T' : TodoList) : Prop where
  later : Later T T'
  completed : ∀ i, T'.statusOf i = some .completed → T.statusOf i = some .completed

theorem Waiting.trans {a b c : TodoList} (h : Waiting a b) (h' : Waiting b c) : Waiting a c :=
  ⟨h.later.trans h'.later, fun i hi => h.completed i (h'.completed i hi)⟩

/-- **Grounded todos dispatched** -/
theorem Heedful.dispatch {T : TodoList} {d : Delegator} (h : Heedful T d) (next : Nat) (instructions : Todo → String)
    {ts : List Todo} (hts : ∀ t ∈ ts, T.Grounded t.id) :
    Heedful (dispatch d T next instructions ts).2.1 (dispatch d T next instructions ts).1 ∧
      Waiting T (Loop.dispatch d T next instructions ts).2.1 := by
  induction ts using List.reverseRecOn with
  | nil => exact ⟨h, .refl T, fun _ hi => hi⟩
  | append_singleton ts t ih =>
    obtain ⟨hheedful, hwaiting⟩ := ih fun k hk => hts k (List.mem_append_left _ hk)
    have hground : T.Grounded t.id := hts t (by simp)
    rw [dispatch_snoc]
    generalize Loop.dispatch d T next instructions ts = s at hheedful hwaiting ⊢
    dsimp only
    cases hd : s.1.delegate (.minted s.2.2) t (instructions t) with
    | error e => exact ⟨hheedful, hwaiting⟩
    | ok p =>
      obtain ⟨d', a⟩ := p
      dsimp only
      rcases Delegator.delegate_ok hd with ⟨rfl, hskipped⟩ | ⟨task, hgiven, -, -, hid, hstarted, rfl⟩
      · rw [hskipped]
        exact ⟨hheedful, hwaiting⟩
      · rw [hgiven]
        obtain ⟨hlater, hstatus⟩ := s.2.1.setStatus_later t.id .inProgress
        have hground' := hground.later hwaiting.later
        refine ⟨⟨hheedful.order.later hlater ?_ ?_, ?_, hheedful.tracked.finished⟩, hwaiting.trans ⟨hlater, ?_⟩⟩
        · intro i
          rcases hstatus i with hsame | ⟨rfl, -⟩
          · exact Or.inl hsame
          · exact Or.inr (Or.inr (Or.inr hground'))
        · intro i hi
          rcases Delegator.delegate_todoIds hd i hi with hi | rfl
          · exact Or.inl hi
          · exact Or.inr hground'
        · intro p hp
          rcases List.mem_append.1 hp with hp | hp
          · exact hheedful.tracked.running p hp
          · rw [List.mem_singleton.1 hp]
            exact hstarted
        · intro i hi
          rcases hstatus i with hsame | ⟨-, hprogress⟩
          · exact hsame ▸ hi
          · rw [if_pos rfl, hprogress] at hi
            cases hi

/-! ## Taking in -/

/-- the end of a task moves its own todo only, and completes it only with a payload -/
theorem settleTodo_later (T : TodoList) (d : Delegator) (t : Task) :
    Later T (settleTodo T d t).1 ∧
      ∀ i, (settleTodo T d t).1.statusOf i = T.statusOf i ∨ (settleTodo T d t).1.statusOf i = some .pending ∨
        i = t.todoId ∧ ((settleTodo T d t).1.statusOf i = some .completed → t.result.isSome = true) := by
  unfold settleTodo
  cases hr : t.result with
  | some p =>
    obtain ⟨hlater, hstatus⟩ := T.setStatus_later t.todoId .completed
    refine ⟨hlater, fun i => ?_⟩
    rcases hstatus i with hsame | ⟨rfl, -⟩
    · exact Or.inl hsame
    · exact Or.inr (Or.inr ⟨rfl, fun _ => rfl⟩)
  | none =>
    cases he : t.error with
    | none => exact ⟨.refl T, fun i => Or.inl rfl⟩
    | some e =>
      dsimp only
      split_ifs
      · obtain ⟨hlater, hstatus⟩ := T.requeue_later t.todoId
        refine ⟨hlater, fun i => ?_⟩
        rcases hstatus i with hsame | hpending
        · exact Or.inl hsame
        · exact Or.inr (Or.inl hpending)
      · obtain ⟨hlater, hstatus⟩ := T.setStatus_later t.todoId .cancelled
        refine ⟨hlater, fun i => ?_⟩
        rcases hstatus i with hsame | ⟨rfl, hcancelled⟩
        · exact Or.inl hsame
        · refine Or.inr (Or.inr ⟨rfl, fun hcompleted => ?_⟩)
          rw [hcancelled] at hcompleted
          cases hcompleted

theorem settleTodo_tracked (T : TodoList) {d : Delegator} (h : d.Tracked) (t : Task) :
    (settleTodo T d t).2.Tracked := by
  unfold settleTodo
  split
  · exact h.mark _
  · split_ifs
    · exact h
    · exact h.mark _
  · exact h

/-- how a loop takes in a task: as the end of the task has it, and no dependency is touched -/
structure Takes (T : TodoList) (d : Delegator) (t : Task) (T' : TodoList) (d' : Delegator) : Prop where
  settles : Settles T d t T' d'
  edges : T'.edges = T.edges

theorem Takes.heedful {T T' : TodoList} {d d' : Delegator} {t : Task} (htakes : Takes T d t T' d') (h : Heedful T d)
    (hground : T.Grounded t.todoId) :
    Heedful T' d' ∧ Later T T' ∧
      ∀ i, T'.statusOf i = some .completed →
        T.statusOf i = some .completed ∨ i = t.todoId ∧ t.result.isSome = true := by
  obtain ⟨⟨T₁, hsame, hids, heq⟩, hedges⟩ := htakes
  have hT : T' = (settleTodo T₁ d t).1 := congrArg Prod.fst heq
  have hd : d' = (settleTodo T₁ d t).2 := congrArg Prod.snd heq
  subst hT hd
  obtain ⟨hlater₁, hstatus⟩ := settleTodo_later T₁ d t
  -- settling adds no todos, so the dependencies before it are those after it
  have hlater : Later T (settleTodo T₁ d t).1 := by
    refine ⟨hedges ▸ List.prefix_refl _, fun i s hs hterminal => ?_, fun i hi => ?_, fun hn => ?_⟩
    · exact hlater₁.terminal i s ((hsame i).trans hs) hterminal
    · rw [settleTodo_ids, hids] at hi
      exact Or.inl hi
    · rw [settleTodo_ids, hids]
      exact hn
  refine ⟨⟨h.order.later hlater ?_ ?_, settleTodo_tracked T₁ h.tracked t⟩, hlater, ?_⟩
  · intro i
    rcases hstatus i with hold | hpending | ⟨rfl, -⟩
    · exact Or.inl (hold.trans (hsame i))
    · exact Or.inr (Or.inr (Or.inl hpending))
    · exact Or.inr (Or.inr (Or.inr hground))
  · intro i hi
    rw [settleTodo_todoIds] at hi
    exact Or.inl hi
  · intro i hi
    rcases hstatus i with hold | hpending | ⟨rfl, hresult⟩
    · rw [hold, hsame] at hi
      exact Or.inl hi
    · rw [hpending] at hi
      cases hi
    · exact Or.inr ⟨rfl, hresult hi⟩

section TakeIn

variable {α : Type} {view : α → TodoList} {take : α × Delegator → Task → α × Delegator}

/-- **Tasks about grounded todos taken in** -/
theorem Heedful.takeIn (htake : ∀ s t, Takes (view s.1) s.2 t (view (take s t).1) (take s t).2) (ts : List Task)
    {s : α × Delegator} (h : Heedful (view s.1) s.2) (hts : ∀ t ∈ ts, (view s.1).Grounded t.todoId) :
    Heedful (view (ts.foldl take s).1) (ts.foldl take s).2 ∧ Later (view s.1) (view (ts.foldl take s).1) ∧
      ∀ i, (view (ts.foldl take s).1).statusOf i = some .completed →
        (view s.1).statusOf i = some .completed ∨ ∃ t ∈ ts, t.todoId = i ∧ t.result.isSome = true := by
  induction ts generalizing s with
  | nil => exact ⟨h, .refl _, fun i hi => Or.inl hi⟩
  | cons t ts ih =>
    obtain ⟨hheedful, hlater, hserved⟩ := (htake s t).heedful h (hts t List.mem_cons_self)
    obtain ⟨hheedful', hlater', hserved'⟩ := ih hheedful fun k hk =>
      (hts k (List.mem_cons_of_mem _ hk)).later hlater
    rw [List.foldl_cons]
    refine ⟨hheedful', hlater.trans hlater', fun i hi => ?_⟩
    rcases hserved' i hi with hi | ⟨k, hk, hki, hresult⟩
    · rcases hserved i hi with hi | ⟨rfl, hresult⟩
      · exact Or.inl hi
      · exact Or.inr ⟨t, List.mem_cons_self, rfl, hresult⟩
    · exact Or.inr ⟨k, List.mem_cons_of_mem _ hk, hki, hresult⟩

end TakeIn

/-- **All running tasks performed and joined**: what is joined is completed and about grounded todos -/
theorem Heedful.perform {ω : Type} (w : World ω) {T : TodoList} {d : Delegator} (h : Heedful T d) (world : ω) :
    Heedful T (performAll w world d).2.1 ∧
      ∀ t ∈ (performAll w world d).2.2, T.Grounded t.todoId ∧ t.status = .completed := by
  obtain ⟨hrest, hjoined⟩ := performAll_frame w world d
  have htracked := settle_tracked h.tracked (w.perform world d.cap d.running).2
    (w.clock (w.perform world d.cap d.running).1)
  refine ⟨⟨h.order.later (.refl T) (fun i => Or.inl rfl) fun i hi => Or.inl (hrest hi), htracked.running,
    by simp [performAll, Delegator.joinAll]⟩, fun t ht => ⟨h.order.tasks _ (hjoined t ht), htracked.finished t ht⟩⟩

/-! ## Steps and runs -/

/-- one step of a loop: what was handed to the delegator and what was joined is about grounded todos, a todo becomes
completed by a task that succeeded, and the todos have their dependencies met all the way through -/
structure Heeded (T : TodoList) (answers : List (Ident × Except DelegationError Dispatch)) (joined : List Task)
    (passed : List TodoList) (T' : TodoList) (d' : Delegator) : Prop where
  heedful : Heedful T' d'
  later : Later T T'
  handed : ∀ a ∈ answers, T.Grounded a.1
  tasks : ∀ t ∈ joined, T.Grounded t.todoId
  served : ∀ i, T'.statusOf i = some .completed →
    T.statusOf i = some .completed ∨ ∃ t ∈ joined, t.todoId = i ∧ t.succeeded = true
  halfway : ∀ P ∈ passed, P.Met

theorem Heeded.idle {T T' : TodoList} {d : Delegator} (h : Heedful T d) (hl : Later T T') (hw : Widened T T') :
    Heeded T [] [] [] T' d where
  heedful := ⟨h.order.widened hl hw, h.tracked⟩
  later := hl
  handed := by simp
  tasks := by simp
  served := by
    intro i hi
    by_cases hid : i ∈ T.ids
    · rw [hw.kept i hid] at hi
      exact Or.inl hi
    · rcases hw.new i hid with hnone | hpending
      · rw [hnone] at hi
        cases hi
      · rw [hpending] at hi
        cases hi
  halfway := by simp

theorem answers_ids (d : Delegator) (T : TodoList) (next : Nat) (instructions : Todo → String) (ts : List Todo) :
    (answers d T next instructions ts).map Prod.fst = ts.map Todo.id := by
  refine List.ext_getElem (by simp [answers]) fun k _ _ => ?_
  simp [answers]

theorem Heeded.given {T : TodoList} {d : Delegator} (h : Heedful T d) (next : Nat) (instructions : Todo → String)
    {ts : List Todo} (hts : ∀ t ∈ ts, T.Grounded t.id) :
    Heeded T (Loop.answers d T next instructions ts) [] (ts.inits.map fun ts => (dispatch d T next instructions ts).2.1)
      (dispatch d T next instructions ts).2.1 (dispatch d T next instructions ts).1 := by
  obtain ⟨hheedful, hwaiting⟩ := h.dispatch next instructions hts
  refine ⟨hheedful, hwaiting.later, fun a ha => ?_, by simp, fun i hi => Or.inl (hwaiting.completed i hi), ?_⟩
  · have hid : a.1 ∈ ts.map Todo.id := by
      rw [← answers_ids d T next instructions ts]
      exact List.mem_map_of_mem ha
    obtain ⟨t, ht, heq⟩ := List.mem_map.1 hid
    rw [← heq]
    exact hts t ht
  · intro P hP
    obtain ⟨us, hus, rfl⟩ := List.mem_map.1 hP
    have hsub : us ⊆ ts := ((List.mem_inits us ts).1 hus).subset
    have hground : ∀ t ∈ us, T.Grounded t.id := fun t ht => hts t (hsub ht)
    obtain ⟨hhalf, -⟩ := h.dispatch next instructions hground
    exact hhalf.order.met

theorem Heeded.taken {ω α : Type} (w : World ω) {view : α → TodoList} {take : α × Delegator → Task → α × Delegator}
    (htake : ∀ s t, Takes (view s.1) s.2 t (view (take s t).1) (take s t).2) {c : α} {d : Delegator}
    (h : Heedful (view c) d) (world : ω) :
    let joined := performAll w world d
    Heeded (view c) [] joined.2.2 (joined.2.2.inits.map fun ts => view (ts.foldl take (c, joined.2.1)).1)
      (view (joined.2.2.foldl take (c, joined.2.1)).1) (joined.2.2.foldl take (c, joined.2.1)).2 := by
  intro joined
  obtain ⟨hheedful, hjoined⟩ := h.perform w world
  have hground : ∀ t ∈ joined.2.2, (view c).Grounded t.todoId := fun t ht => (hjoined t ht).1
  obtain ⟨hheedful', hlater, hserved⟩ := Heedful.takeIn htake joined.2.2 (s := (c, joined.2.1)) hheedful hground
  refine ⟨hheedful', hlater, by simp, hground, fun i hi => ?_, ?_⟩
  · rcases hserved i hi with hi | ⟨t, ht, hti, hresult⟩
    · exact Or.inl hi
    · refine Or.inr ⟨t, ht, hti, ?_⟩
      simp [Task.succeeded, (hjoined t ht).2, hresult]
  · intro P hP
    obtain ⟨us, hus, rfl⟩ := List.mem_map.1 hP
    have hsub : us ⊆ joined.2.2 := ((List.mem_inits us _).1 hus).subset
    obtain ⟨hhalf, -⟩ := Heedful.takeIn htake us (s := (c, joined.2.1)) hheedful fun t ht => hground t (hsub ht)
    exact hhalf.order.met

theorem Heeded.trans {T T₁ T₂ : TodoList} {d₁ d₂ : Delegator} {as : List (Ident × Except DelegationError Dispatch)}
    {ts : List Task} {ps qs : List TodoList} (h : Heeded T as [] ps T₁ d₁) (h' : Heeded T₁ [] ts qs T₂ d₂)
    (hts : ∀ t ∈ ts, T.Grounded t.todoId) : Heeded T as ts (ps ++ qs) T₂ d₂ where
  heedful := h'.heedful
  later := h.later.trans h'.later
  handed := h.handed
  tasks := hts
  served := by
    intro i hi
    rcases h'.served i hi with hi | hserved
    · rcases h.served i hi with hi | ⟨t, ht, -⟩
      · exact Or.inl hi
      · cases ht
    · exact Or.inr hserved
  halfway := by
    intro P hP
    rcases List.mem_append.1 hP with hP | hP
    · exact h.halfway P hP
    · exact h'.halfway P hP

/-- what can never be met: a dependency that is not there, under a name that is never minted, one that was cancelled,
or one that rests on itself -/
def Lost (T : TodoList) (j : Ident) : Prop :=
  ((∀ k, j ≠ .minted k) ∧ ∀ t ∈ T.items, t.id ≠ j) ∨ (∃ t ∈ T.items, t.id = j ∧ t.status = .cancelled) ∨
    Relation.TransGen T.Needs j j

/-- a dependency of a todo was served before a step: a task about it succeeded in an earlier one -/
def Course.Served (c : Course) (n : Nat) (j : Ident) : Prop :=
  ∃ m < n, ∃ t ∈ c.joined m, t.todoId = j ∧ t.succeeded = true

/-- dependencies are respected at all times; `passed` has the todos halfway through each step -/
structure RespectsDependencies (c : Course) (passed : Nat → List TodoList) : Prop where
  /-- no two todos have one id -/
  distinct : ∀ n, (c.todos n).ids.Nodup
  /-- what is in progress, completed or cancelled has all its dependencies completed -/
  met : ∀ n, (c.todos n).Met
  /-- also halfway through a step -/
  halfway : ∀ n, ∀ T ∈ passed n, T.Met
  /-- what is handed to the delegator is a todo, each dependency of which a task has served before -/
  handed : ∀ n, ∀ a ∈ c.answers n, ∃ t ∈ (c.todos n).items, t.id = a.1 ∧ ∀ j ∈ t.dependsOn, c.Served n j
  /-- so is what a joined task is about -/
  joined : ∀ n, ∀ k ∈ c.joined n, ∃ t ∈ (c.todos n).items, t.id = k.todoId ∧ ∀ j ∈ t.dependsOn, c.Served n j
  /-- all that a todo that is handed over rests on, however far down, is there and completed -/
  rests : ∀ n, ∀ a ∈ c.answers n, ∀ j, Relation.TransGen (c.todos n).Needs a.1 j →
    ∃ t ∈ (c.todos n).items, t.id = j ∧ t.status = .completed
  /-- what rests on a lost dependency at any time is handed over at no time -/
  never : ∀ n, ∀ a ∈ c.answers n, ∀ m j, Relation.TransGen (c.todos m).Needs a.1 j → ¬ Lost (c.todos m) j

/-- nothing that a grounded todo rests on is lost -/
theorem grounded_unlost {T : TodoList} {about : List Ident} (h : T.InOrder about) {i j : Ident} (hi : T.Grounded i)
    (hij : Relation.TransGen T.Needs i j) : ¬ Lost T j := by
  obtain ⟨hcompleted, hj⟩ := hi.completed h.distinct hij
  rintro (⟨-, hmissing⟩ | ⟨t, ht, htj, hcancelled⟩ | hcycle)
  · obtain ⟨t, ht, htj⟩ := List.mem_map.1 hj.there
    exact hmissing t ht htj
  · have hstatus := (TodoList.statusOf_iff h.distinct j _).2 ⟨t, ht, htj, hcancelled⟩
    rw [hcompleted] at hstatus
    cases hstatus
  · exact hj.acyclic h.distinct hcycle

theorem Lost.later {T T' : TodoList} (hl : Later T T') (h : T.ids.Nodup) {j : Ident} (hj : Lost T j) : Lost T' j := by
  rcases hj with ⟨hname, hmissing⟩ | ⟨t, ht, htj, hcancelled⟩ | hcycle
  · refine Or.inl ⟨hname, fun t ht htj => ?_⟩
    rcases hl.minted j (htj ▸ List.mem_map_of_mem ht) with hold | ⟨k, hk⟩
    · obtain ⟨t', ht', hid⟩ := List.mem_map.1 hold
      exact hmissing t' ht' hid
    · exact hname k hk
  · have hstatus := (TodoList.statusOf_iff h j _).2 ⟨t, ht, htj, hcancelled⟩
    exact Or.inr (Or.inl ((TodoList.statusOf_iff (hl.nodup h) j _).1 (hl.terminal j _ hstatus rfl)))
  · exact Or.inr (Or.inr (hl.rests hcycle))

/-- **What follows for a run from what holds of each of its steps** -/
theorem respects {c : Course} {passed : Nat → List TodoList} (h0 : Heedful (c.todos 0) (c.delegator 0))
    (hnone : ∀ i, (c.todos 0).statusOf i ≠ some .completed)
    (h : ∀ n, Heeded (c.todos n) (c.answers n) (c.joined n) (passed n) (c.todos (n + 1)) (c.delegator (n + 1))) :
    RespectsDependencies c passed := by
  have hheedful : ∀ n, Heedful (c.todos n) (c.delegator n) := by
    intro n
    cases n with
    | zero => exact h0
    | succ n => exact (h n).heedful
  have hlater : ∀ n m, n ≤ m → Later (c.todos n) (c.todos m) := by
    intro n m hnm
    induction hnm with
    | refl => exact .refl _
    | step _ ih => exact ih.trans (h _).later
  -- behind a completed todo stands a task that succeeded
  have hserved : ∀ n i, (c.todos n).statusOf i = some .completed → c.Served n i := by
    intro n
    induction n with
    | zero => exact fun i hi => absurd hi (hnone i)
    | succ n ih =>
      intro i hi
      rcases (h n).served i hi with hi | ⟨t, ht, hti, hsucceeded⟩
      · obtain ⟨m, hm, hserved⟩ := ih i hi
        exact ⟨m, by omega, hserved⟩
      · exact ⟨n, by omega, t, ht, hti, hsucceeded⟩
  have hgrounded : ∀ n i, (c.todos n).Grounded i →
      ∃ t ∈ (c.todos n).items, t.id = i ∧ ∀ j ∈ t.dependsOn, c.Served n j := by
    intro n i hi
    obtain ⟨ht, hmet, -⟩ := hi
    exact ⟨_, ht, rfl, fun j hj => hserved n j (hmet j hj)⟩
  exact {
    distinct := fun n => (hheedful n).order.distinct
    met := fun n => (hheedful n).order.met
    halfway := fun n => (h n).halfway
    handed := fun n a ha => hgrounded n _ ((h n).handed a ha)
    joined := fun n k hk => hgrounded n _ ((h n).tasks k hk)
    rests := by
      intro n a ha j hij
      obtain ⟨hcompleted, -⟩ := ((h n).handed a ha).completed (hheedful n).order.distinct hij
      exact (TodoList.statusOf_iff (hheedful n).order.distinct _ _).1 hcompleted
    never := by
      intro n a ha m j hij hlost
      have hground := (h n).handed a ha
      rcases le_total n m with hnm | hmn
      · exact grounded_unlost (hheedful m).order (hground.later (hlater n m hnm)) hij hlost
      · have hrests := (hlater m n hmn).rests hij
        have hlost' := hlost.later (hlater m n hmn) (hheedful m).order.distinct
        exact grounded_unlost (hheedful n).order hground hrests hlost' }

/-! ## Planning -/

theorem planFollowUps_later (T : TodoList) (next : Nat) (texts : List String) :
    Later T (planFollowUps T next texts).1 := by
  induction texts using List.reverseRecOn with
  | nil => exact .refl T
  | append_singleton texts text ih =>
    rw [planFollowUps, List.foldl_append, List.foldl_cons, List.foldl_nil, ← planFollowUps]
    unfold planFollowUp
    split_ifs
    · exact ih
    · exact ih.trans (TodoList.push_later _ rfl ⟨_, rfl⟩)

theorem settleTodo_edges (T : TodoList) (d : Delegator) (t : Task) : (settleTodo T d t).1.edges = T.edges := by
  unfold settleTodo
  split
  · exact TodoList.setStatus_edges ..
  · split_ifs
    · exact TodoList.requeue_edges ..
    · exact TodoList.setStatus_edges ..
  · rfl

theorem record_edges (l : Ledger) (T : TodoList) (fs : List Finding) (id : Ident) :
    ((record l T fs).2.1.attach id (record l T fs).2.2).edges = T.edges := by
  rw [TodoList.attach_edges]
  exact TodoList.repointAll_edges T _

end Loop

/-! ## The work loop -/

namespace WorkLoop

theorem absorb_takes (s : WorkContext × Delegator) (t : Task) :
    Loop.Takes s.1.todos s.2 t (absorb s t).1.todos (absorb s t).2 := by
  refine ⟨absorb_settles s t, ?_⟩
  cases hr : t.result with
  | none => simp [absorb, hr, Loop.settleTodo_edges]
  | some p =>
    have hrecord := Loop.record_edges s.1.ledger s.1.todos
      (Finding.ofReports s.1.nextId p.findings t.subagent (some t.todoId)) t.todoId
    simpa [absorb, absorbPayload, hr, Loop.settleTodo_edges] using hrecord

theorem plan_later {c c' : WorkContext} (h : plan c = some c') : c.todos.Later c'.todos := by
  unfold plan at h
  split_ifs at h
  · cases hg : Plan.ofGoal c.nextId c.goal with
    | none => simp [hg] at h
    | some ts =>
      simp only [hg, Option.map_some, Option.bind_eq_bind, Option.bind_some, pure, Option.some.injEq] at h
      rw [← h]
      have hnew : ∀ t ∈ ts, t.status = .pending ∧ ∃ k, t.id = .minted k := fun t ht =>
        ⟨(Loop.ofGoal_new hg t ht).pending, (Loop.ofGoal_new hg t ht).minted⟩
      exact (TodoList.extend_later _ hnew).trans (Loop.planFollowUps_later ..)
  · simp only [Option.bind_eq_bind, Option.bind_some, pure, Option.some.injEq] at h
    rw [← h]
    exact Loop.planFollowUps_later ..

theorem Still.later {c c' : WorkContext} (h : Still c c') : c.todos.Later c'.todos := by
  cases h with
  | kept _ _ htodos =>
    rw [htodos]
    exact .refl _
  | planned h => exact plan_later h

variable {ω : Type} {w : World ω} {digest : List UInt8 → List UInt8} {s : Settings} {machineId : String}

/-- the todos halfway through a step: after each todo that is dispatched, and after each task that is taken in -/
def halfway (w : World ω) (s : Settings) (r : Run ω) : List TodoList :=
  match r.machine.state with
  | .act =>
    let c := r.machine.context.data
    let ready := c.todos.ready.take (s.work.maxSubagentCalls - c.calls)
    (ready.inits.map fun ts => (Loop.dispatch r.delegator c.todos c.nextId Todo.description ts).2.1) ++
      (performed w s r).2.2.inits.map fun ts =>
        (ts.foldl absorb ((dispatch s.work c r.delegator).1, (performed w s r).2.1)).1.todos
  | _ => []

theorem act_heeded (w : World ω) (s : Settings) {r : Run ω} (h : Loop.Heedful r.machine.context.data.todos r.delegator)
    (hs : r.machine.state = .act) :
    Loop.Heeded r.machine.context.data.todos (answered s r) (harvest w s r).flatten (halfway w s r)
      (acted w s r).1.todos (acted w s r).2 := by
  have hready : ∀ t ∈ r.machine.context.data.todos.ready.take
      (s.work.maxSubagentCalls - r.machine.context.data.calls), r.machine.context.data.todos.Grounded t.id :=
    fun t ht => h.order.ready t (List.mem_of_mem_take ht)
  have hgiven := Loop.Heeded.given h r.machine.context.data.nextId Todo.description hready
  have htaken := Loop.Heeded.taken w absorb_takes (c := (dispatch s.work r.machine.context.data r.delegator).1)
    hgiven.heedful r.world
  -- a task that is joined was running before, or is about one of the todos that were dispatched
  have hjoined : ∀ t ∈ (performed w s r).2.2, r.machine.context.data.todos.Grounded t.todoId := by
    intro t ht
    have hdispatched := (Loop.performAll_frame w r.world _).2 t ht
    rcases (Loop.dispatch_frame ..).2 _ hdispatched with hold | hnew
    · exact h.order.tasks _ hold
    · obtain ⟨k, hk, hid⟩ := List.mem_map.1 hnew
      exact hid ▸ hready k hk
  have hanswered : answered s r = Loop.answers r.delegator r.machine.context.data.todos
      r.machine.context.data.nextId Todo.description
      (r.machine.context.data.todos.ready.take (s.work.maxSubagentCalls - r.machine.context.data.calls)) := by
    simp [answered, hs]
  rw [hanswered, harvest_act hs, List.flatten_singleton]
  simp only [halfway, hs]
  exact hgiven.trans htaken hjoined

variable (digest s)

/-- **One step of a work loop** -/
theorem heeded (w : World ω) {r : Run ω} (hr : Ruled machineId r)
    (h : Loop.Heedful r.machine.context.data.todos r.delegator) :
    Loop.Heeded r.machine.context.data.todos (answered s r) (harvest w s r).flatten (halfway w s r)
      (next w digest s r).machine.context.data.todos (next w digest s r).delegator := by
  by_cases hs : r.machine.state = .act
  · have hnext := next_act w digest s hr hs
    rw [hnext.data, hnext.delegator]
    exact act_heeded w s h hs
  · obtain ⟨hd, hstill⟩ := next_still w digest s hr hs
    have hhalfway : halfway w s r = [] := by
      cases hst : r.machine.state with
      | act => exact absurd hst hs
      | _ => simp [halfway, hst]
    rw [answered_idle hs, harvest_idle hs, List.flatten_nil, hhalfway, hd]
    exact .idle h hstill.later hstill.widened

/-- **Every run of a work loop** -/
theorem course_respects (w : World ω) {r : Run ω} (hr : Ruled machineId r)
    (h : Loop.Heedful r.machine.context.data.todos r.delegator)
    (hnone : ∀ i, r.machine.context.data.todos.statusOf i ≠ some .completed) :
    Loop.RespectsDependencies (course w digest s r) fun n => halfway w s (boundary w digest s n r) := by
  have hheedful : ∀ n, Loop.Heedful (boundary w digest s n r).machine.context.data.todos
      (boundary w digest s n r).delegator := by
    apply along w digest s hr
      (P := fun _ q => Loop.Heedful q.machine.context.data.todos q.delegator) h
    intro _ q hq hheedful
    exact (heeded digest s w hq hheedful).heedful
  refine Loop.respects h hnone fun n => ?_
  have hstep := heeded digest s w (hr.boundary w digest s n) (hheedful n)
  rwa [← boundary_succ w digest s hr] at hstep

end WorkLoop

/-! ## The review loop -/

namespace ReviewLoop

theorem collect_takes (s : ReviewContext × Delegator) (t : Task) :
    Loop.Takes s.1.todos s.2 t (collect s t).1.todos (collect s t).2 := by
  refine ⟨collect_settles s t, ?_⟩
  cases hr : t.result with
  | none => simp [collect, hr, Loop.settleTodo_edges]
  | some p =>
    have hrecord := Loop.record_edges s.1.ledger s.1.todos
      (Finding.ofReports s.1.nextId p.findings t.subagent (some t.todoId)) t.todoId
    simpa [collect, collectPayload, hr, Loop.settleTodo_edges] using hrecord

theorem scan_later (c : ReviewContext) (scanner : Scanner) : c.todos.Later (scan c scanner).todos := by
  unfold scan
  cases scanner.scan c.changes with
  | none => exact .refl _
  | some reports => exact .of_same (TodoList.repointAll_edges _ _) (TodoList.statusOf_repointAll _ _)

theorem explore_later (scanners : List Scanner) (changes : ChangeSet) (c : ReviewContext) :
    c.todos.Later (explore scanners changes c).todos := by
  have hscans : ∀ a : ReviewContext, c.todos.Later a.todos → c.todos.Later (scanners.foldl scan a).todos := by
    induction scanners with
    | nil => exact fun a h => h
    | cons scanner scanners ih => exact fun a h => ih _ (h.trans (scan_later a scanner))
  have hnew : ∀ t ∈ todosFor c.nextId changes, t.status = .pending ∧ ∃ k, t.id = .minted k := fun t ht =>
    ⟨(todosFor_new ht).pending, (todosFor_new ht).minted⟩
  unfold explore
  cases hempty : c.todos.isEmpty with
  | true =>
    simp only [hempty, if_true]
    exact hscans _ (TodoList.extend_later c.todos hnew)
  | false =>
    simp only [hempty, Bool.false_eq_true, if_false]
    exact hscans _ (.refl _)

variable {ω : Type} {w : World ω} {s : Settings} {b : Brief} {machineId : String}

theorem Still.later {r : Run ω} {c : ReviewContext} (h : Still b r c) :
    r.machine.context.data.todos.Later c.todos := by
  cases h with
  | kept _ htodos =>
    rw [htodos]
    exact .refl _
  | explored changes _ _ htodos =>
    rw [htodos]
    exact explore_later ..
  | planned _ htodos =>
    rw [htodos]
    exact Loop.planFollowUps_later ..

/-- the todos halfway through a step: after each todo that is dispatched, or after each task that is taken in -/
def halfway (w : World ω) (r : Run ω) : List TodoList :=
  let c := r.machine.context.data
  match r.machine.state with
  | .delegating =>
    c.todos.ready.inits.map fun ts => (Loop.dispatch r.delegator c.todos c.nextId (instructions c) ts).2.1
  | .reviewing => (performed w r).2.2.inits.map fun ts => (ts.foldl collect (c, (performed w r).2.1)).1.todos
  | _ => []

variable (s b)

/-- **One step of a review** -/
theorem heeded (w : World ω) {r : Run ω} (hr : Ruled machineId s r)
    (h : Loop.Heedful r.machine.context.data.todos r.delegator) :
    Loop.Heeded r.machine.context.data.todos (answered r) (harvest w r) (halfway w r)
      (next w s b r).machine.context.data.todos (next w s b r).delegator := by
  by_cases hdelegating : r.machine.state = .delegating
  · have hnext := next_delegating w s b hr hdelegating
    rw [hnext.data, hnext.delegator]
    simp only [answered, harvest, halfway, hdelegating]
    exact .given h r.machine.context.data.nextId (instructions r.machine.context.data) h.order.ready
  by_cases hreviewing : r.machine.state = .reviewing
  · have hnext := next_reviewing w s b hr hreviewing
    rw [hnext.data, hnext.delegator]
    simp only [answered, harvest, halfway, hreviewing]
    exact .taken w collect_takes h r.world
  obtain ⟨hd, hstill⟩ := next_still w s b hr hdelegating hreviewing
  have hhalfway : halfway w r = [] := by
    cases hs : r.machine.state with
    | delegating => exact absurd hs hdelegating
    | reviewing => exact absurd hs hreviewing
    | _ => simp [halfway, hs]
  rw [answered_idle hdelegating, harvest_idle hreviewing, hhalfway, hd]
  exact .idle h hstill.later hstill.widened

/-- **Every run of a review** -/
theorem course_respects (w : World ω) {r : Run ω} (hr : Ruled machineId s r)
    (h : Loop.Heedful r.machine.context.data.todos r.delegator)
    (hnone : ∀ i, r.machine.context.data.todos.statusOf i ≠ some .completed) :
    Loop.RespectsDependencies (course w s b r) fun n => halfway w (boundary w s b n r) := by
  have hheedful : ∀ n, Loop.Heedful (boundary w s b n r).machine.context.data.todos (boundary w s b n r).delegator := by
    apply along w s b hr (P := fun _ q => Loop.Heedful q.machine.context.data.todos q.delegator) h
    intro _ q hq hheedful
    exact (heeded s b w hq hheedful).heedful
  refine Loop.respects h hnone fun n => ?_
  have hstep := heeded s b w (hr.boundary w s b n) (hheedful n)
  rwa [← boundary_succ w s b hr] at hstep

end ReviewLoop

/-! ## Both loops -/

/-- todos that are all pending are in order, and none of them is completed -/
theorem Loop.heedful_start {todos : List Todo} (h : ∀ t ∈ todos, t.status = .pending) (registry : Registry)
    (cap : Nat) :
    Heedful (.ofList todos) (.empty registry cap) ∧
      ∀ i, (TodoList.ofList todos).statusOf i ≠ some .completed := by
  refine ⟨⟨TodoList.inOrder_start h, Delegator.empty_tracked registry cap⟩, fun i hi => ?_⟩
  have hwide : TodoList.Widened .empty (.ofList todos) := TodoList.extend_widened .empty h
  rcases hwide.new i (by simp [TodoList.ids, TodoList.empty]) with hnone | hpending
  · rw [hi] at hnone
    cases hnone
  · rw [hi] at hpending
    cases hpending

/-- **Dependencies are respected.** Take a run of either loop that begins with pending todos, which may depend on
anything, in any world, whatever ends its tasks have or do not have. At all times, also halfway through a step, the
todos that are in progress, completed or cancelled have all their dependencies completed; each dependency of a todo
that is handed to the delegator was served by a task that succeeded in an earlier step, and all that it rests on is
completed; and nothing that rests on a dependency that is missing, cancelled or on a cycle is ever handed over. -/
theorem dependencies_respected {ω : Type} (w : World ω) (s : Settings) (registry : Registry) (id : String)
    (observers : Nat) (hasStore : Bool) (todos : List Todo) (htodos : ∀ t ∈ todos, t.status = .pending) (nextId : Nat)
    (world : ω) :
    (∀ digest goal changes r,
      WorkLoop.begin s registry id observers hasStore (.start goal changes todos nextId) world = .ok r →
        Loop.RespectsDependencies (WorkLoop.course w digest s r) fun n =>
          WorkLoop.halfway w s (WorkLoop.boundary w digest s n r)) ∧
      ∀ brief description r,
        ReviewLoop.begin s registry id observers hasStore (.start description todos nextId) world = .ok r →
          Loop.RespectsDependencies (ReviewLoop.course w s brief r) fun n =>
            ReviewLoop.halfway w (ReviewLoop.boundary w s brief n r) := by
  obtain ⟨hheedful, hnone⟩ := Loop.heedful_start htodos registry s.concurrencyCap
  constructor
  · intro digest goal changes r h
    obtain ⟨-, rfl⟩ := WorkLoop.begin_started h
    have hruled := WorkLoop.started_ruled s registry id observers hasStore (.start goal changes todos nextId) world
    exact WorkLoop.course_respects digest s w hruled hheedful hnone
  · intro brief description r h
    obtain ⟨-, rfl⟩ := ReviewLoop.begin_started h
    have hruled := ReviewLoop.started_ruled s registry id observers hasStore (.start description todos nextId) world
    exact ReviewLoop.course_respects s brief w hruled hheedful hnone

/-- a todo, one that depends on it, one that depends on nobody, and two that depend on each other -/
def tangled : List Todo :=
  [lookTodo,
    { Todo.fresh (.given "tell") "tell" .high with dependsOn := [lookTodo.id] },
    { Todo.fresh (.given "wait") "wait" .high with dependsOn := [.given "nobody"] },
    { Todo.fresh (.given "hen") "hen" .high with dependsOn := [.given "egg"] },
    { Todo.fresh (.given "egg") "egg" .high with dependsOn := [.given "hen"] }]

/-- the second todo is dispatched a round after the first, and the others are not -/
theorem dependencies_respected_tangled :
    (∃ r, WorkLoop.begin {} .standard "work" 0 false (.start "look" ⟨[]⟩ tangled 0) 0 = .ok r ∧
        Loop.RespectsDependencies (WorkLoop.course (.inTurn fun _ => .ok .blank) (fun x => x) {} r)
          (fun n => WorkLoop.halfway (.inTurn fun _ => .ok .blank) {}
            (WorkLoop.boundary (.inTurn fun _ => .ok .blank) (fun x => x) {} n r)) ∧
        ((WorkLoop.course (.inTurn fun _ => .ok .blank) (fun x => x) {} r).answers 2).map Prod.fst = [lookTodo.id] ∧
        ((WorkLoop.course (.inTurn fun _ => .ok .blank) (fun x => x) {} r).answers 6).map Prod.fst =
          [.given "tell"] ∧
        (WorkLoop.course (.inTurn fun _ => .ok .blank) (fun x => x) {} r).answers 10 = []) ∧
      ∃ r, ReviewLoop.begin {} .standard "review" 0 false (.start "look" tangled 0) 0 = .ok r ∧
        Loop.RespectsDependencies (ReviewLoop.course (.inTurn fun _ => .ok .blank) {} ⟨.ok ⟨[]⟩, []⟩ r)
          (fun n => ReviewLoop.halfway (.inTurn fun _ => .ok .blank)
            (ReviewLoop.boundary (.inTurn fun _ => .ok .blank) {} ⟨.ok ⟨[]⟩, []⟩ n r)) ∧
        ((ReviewLoop.course (.inTurn fun _ => .ok .blank) {} ⟨.ok ⟨[]⟩, []⟩ r).answers 2).map Prod.fst =
          [lookTodo.id] ∧
        ((ReviewLoop.course (.inTurn fun _ => .ok .blank) {} ⟨.ok ⟨[]⟩, []⟩ r).answers 5).map Prod.fst =
          [.given "tell"] := by
  have hvalid : Settings.validate {} = .ok () := by decide +kernel
  have hpending : ∀ t ∈ tangled, t.status = .pending := by decide
  constructor
  · have hbegin := WorkLoop.begin_ok hvalid .standard "work" 0 false (.start "look" ⟨[]⟩ tangled 0) 0
    obtain ⟨hwork, -⟩ := dependencies_respected (.inTurn fun _ => .ok .blank) {} .standard "work" 0 false tangled
      hpending 0 0
    exact ⟨_, hbegin, hwork (fun x => x) "look" ⟨[]⟩ _ hbegin, by decide +kernel, by decide +kernel,
      by decide +kernel⟩
  · have hbegin := ReviewLoop.begin_ok hvalid .standard "review" 0 false (.start "look" tangled 0) 0
    obtain ⟨-, hreview⟩ := dependencies_respected (.inTurn fun _ => .ok .blank) {} .standard "review" 0 false tangled
      hpending 0 0
    exact ⟨_, hbegin, hreview ⟨.ok ⟨[]⟩, []⟩ "look" _ hbegin, by decide +kernel, by decide +kernel⟩

end Foreman

/-
The todos of a loop and its delegator.

Which todos are in progress, and which are done with, is kept twice: in the status of the todos and in the two sets of
the delegator. `Agreement` says that both are the same, also while joined tasks are still to be taken in. Dispatching a
pending todo, performing tasks, taking in a joined one and adding new todos all keep it. A todo that is dispatched is
pending, so by the agreement the delegator has no reason to skip it; and a todo that is done with is never pending
again.

Results:
- `Agreement.dispatch`: pending todos dispatched; none of them is skipped.
- `Agreement.perform`:  all running tasks performed and joined.
- `Agreement.takeIn`:   joined tasks taken in, in either loop.
- `Agreement.widened`:  new todos.
- `atMostOnce`:         what follows for a run from what holds of each of its steps.
-/
import Foreman.Proofs.Loop.Boundary
import Foreman.Proofs.Loop.Settle

namespace Foreman

/-- every task that the world is given to perform ends, in a payload or an error -/
def World.Finishes {ω : Type} (w : World ω) : Prop :=
  ∀ world cap running, (∀ e ∈ (w.perform world cap running).2, e.2.isSome = true) ∧
    ∀ p ∈ running, p.1 ∈ (w.perform world cap running).2.map Prod.fst

theorem World.inTurn_finishes (ends : Nat → Except GuardError Payload) : (inTurn ends).Finishes := by
  intro world cap running
  constructor
  · intro e he
    obtain ⟨p, -, rfl⟩ := List.mem_map.1 he
    rfl
  · intro p hp
    simp only [inTurn, List.map_map]
    exact List.mem_map.2 ⟨p, hp, rfl⟩

namespace Loop

/-- todos and a delegator agree while joined tasks are still to be taken in: a todo is in progress if it is in flight or
one of the tasks is about it, and completed or cancelled if it is processed -/
structure Agreement (T : TodoList) (d : Delegator) (joined : List Task) : Prop where
  distinct : T.ids.Nodup
  sound : d.Sound
  inProgress : ∀ id, T.statusOf id = some .inProgress ↔ id ∈ d.inFlight ++ joined.map Task.todoId
  processed : ∀ id, id ∈ d.processed ↔ T.statusOf id = some .completed ∨ T.statusOf id = some .cancelled
  single : (d.inFlight ++ joined.map Task.todoId).Nodup
  ended : ∀ t ∈ joined, ∃ outcome, t.outcome? = some outcome

theorem agreement_empty (registry : Registry) (cap : Nat) : Agreement .empty (.empty registry cap) [] where
  distinct := by simp [TodoList.ids, TodoList.empty]
  sound := Delegator.empty_sound registry cap
  inProgress := by simp [TodoList.statusOf, TodoList.get?, TodoList.empty, Delegator.empty]
  processed := by simp [TodoList.statusOf, TodoList.get?, TodoList.empty, Delegator.empty]
  single := by simp [Delegator.empty]
  ended := by simp

/-- **New todos** are pending, so they are neither in flight nor processed. -/
theorem Agreement.widened {T T' : TodoList} {d : Delegator} (h : Agreement T d []) (hw : TodoList.Widened T T') :
    Agreement T' d [] := by
  have hsame : ∀ id s, s ≠ .pending → (T'.statusOf id = some s ↔ T.statusOf id = some s) := by
    intro id s hs
    by_cases hid : id ∈ T.ids
    · rw [hw.kept id hid]
    · rw [(TodoList.statusOf_eq_none T id).2 hid]
      rcases hw.new id hid with hnone | hpending
      · simp [hnone]
      · simp [hpending, hs.symm]
  refine ⟨hw.nodup h.distinct, h.sound, fun id => ?_, fun id => ?_, h.single, h.ended⟩
  · rw [hsame id _ (by decide), h.inProgress]
  · rw [hsame id _ (by decide), hsame id _ (by decide), h.processed]

/-! ## Planning -/

theorem planFollowUps_widened (T : TodoList) (next : Nat) (texts : List String) :
    TodoList.Widened T (planFollowUps T next texts).1 := by
  induction texts using List.reverseRecOn with
  | nil => exact .refl T
  | append_singleton texts text ih =>
    rw [planFollowUps, List.foldl_append, List.foldl_cons, List.foldl_nil, ← planFollowUps]
    unfold planFollowUp
    split_ifs
    · exact ih
    · exact ih.trans (TodoList.push_widened _ rfl)

/-! ## Dispatching -/

theorem dispatch_snoc (d : Delegator) (T : TodoList) (next : Nat) (instructions : Todo → String) (ts : List Todo)
    (t : Todo) :
    dispatch d T next instructions (ts ++ [t]) =
      let s := dispatch d T next instructions ts
      match s.1.delegate (.minted s.2.2) t (instructions t) with
      | .ok (d, r) => (d, if r.isDispatched then (s.2.1.setStatus t.id .inProgress).1 else s.2.1, s.2.2 + 1)
      | .error _ => (s.1, s.2.1, s.2.2 + 1) := by
  unfold dispatch
  rw [List.foldl_append]
  generalize List.foldl _ _ ts = s
  obtain ⟨d, T, next⟩ := s
  cases d.delegate (.minted next) t (instructions t) <;> rfl

/-- what the delegator answers when todos are dispatched one after the other, each after those before it -/
def answers (d : Delegator) (T : TodoList) (next : Nat) (instructions : Todo → String) (ts : List Todo) :
    List (Ident × Except DelegationError Dispatch) :=
  ts.mapIdx fun k t =>
    let s := dispatch d T next instructions (ts.take k)
    (t.id, (s.1.delegate (.minted s.2.2) t (instructions t)).map Prod.snd)

theorem Agreement.delegate {T : TodoList} {d : Delegator} (h : Agreement T d []) {t : Todo}
    (ht : T.statusOf t.id = some .pending) (taskId : Ident) (instructions : String) :
    (∃ e, d.delegate taskId t instructions = .error e) ∨
      ∃ task name, d.delegate taskId t instructions =
          .ok ({ d with
            running := d.running ++ [(d.next, task)]
            inFlight := d.inFlight ++ [t.id]
            next := d.next + 1
            dispatched := d.dispatched + 1 }, .dispatched d.next name) ∧
        task.todoId = t.id ∧ task.Started := by
  refine Delegator.delegate_cases h.sound.isOpen ?_ ?_ taskId instructions
  · intro hp
    rcases (h.processed t.id).1 hp with hs | hs <;> rw [hs] at ht <;> cases ht
  · intro hf
    have hs := (h.inProgress t.id).2 (List.mem_append_left _ hf)
    rw [hs] at ht
    cases ht

theorem Agreement.started {T : TodoList} {d : Delegator} (h : Agreement T d []) {task : Task}
    (ht : T.statusOf task.todoId = some .pending) (hs : task.Started) :
    Agreement (T.setStatus task.todoId .inProgress).1 { d with
      running := d.running ++ [(d.next, task)]
      inFlight := d.inFlight ++ [task.todoId]
      next := d.next + 1
      dispatched := d.dispatched + 1 } [] := by
  have hnot : task.todoId ∉ d.inFlight := by
    intro hf
    have hprogress := (h.inProgress task.todoId).2 (List.mem_append_left _ hf)
    rw [hprogress] at ht
    cases ht
  have hstatus := TodoList.statusOf_setStatus ht rfl (s := .inProgress) (by decide) (by decide)
  have hids : (T.setStatus task.todoId .inProgress).1.ids = T.ids :=
    TodoList.ids_of_held (TodoList.setStatus_held T task.todoId .inProgress)
  have hsound := Delegator.dispatched_sound h.sound hs hnot
  refine ⟨hids ▸ h.distinct, hsound, fun id => ?_, fun id => ?_, by simpa using hsound.single, by simp⟩
  · have hbefore := h.inProgress id
    rw [hstatus]
    by_cases hid : id = task.todoId
    · simp [hid]
    · simpa [hid] using hbefore
  · rw [hstatus, h.processed]
    by_cases hid : id = task.todoId
    · rw [hid, ht]
      simp
    · rw [if_neg hid]

/-- **Pending todos dispatched**: the others stay what they were -/
theorem Agreement.dispatch {T : TodoList} {d : Delegator} (h : Agreement T d []) (next : Nat)
    (instructions : Todo → String) {ts : List Todo} (hts : ∀ t ∈ ts, T.statusOf t.id = some .pending)
    (hnodup : (ts.map Todo.id).Nodup) :
    let s := Loop.dispatch d T next instructions ts
    Agreement s.2.1 s.1 [] ∧ ∀ j, j ∉ ts.map Todo.id → s.2.1.statusOf j = T.statusOf j := by
  induction ts using List.reverseRecOn with
  | nil => exact ⟨h, fun _ _ => rfl⟩
  | append_singleton ts t ih =>
    rw [List.map_append, List.map_singleton] at hnodup
    have hbefore := ih (fun k hk => hts k (List.mem_append_left _ hk)) (List.nodup_append.1 hnodup).1
    have hnew : t.id ∉ ts.map Todo.id := by
      intro hmem
      exact (List.nodup_append.1 hnodup).2.2 _ hmem _ List.mem_cons_self rfl
    rw [dispatch_snoc]
    generalize Loop.dispatch d T next instructions ts = s at hbefore ⊢
    obtain ⟨hagree, hkept⟩ := hbefore
    have hpending : s.2.1.statusOf t.id = some .pending := by
      rw [hkept t.id hnew]
      exact hts t (by simp)
    rcases hagree.delegate hpending (.minted s.2.2) (instructions t) with ⟨e, he⟩ | ⟨task, name, hd, hid, hs⟩
    · simp only [he]
      refine ⟨hagree, fun j hj => hkept j fun hmem => hj ?_⟩
      rw [List.map_append]
      exact List.mem_append_left _ hmem
    · simp only [hd, Dispatch.isDispatched, if_true]
      refine ⟨?_, fun j hj => ?_⟩
      · rw [← hid] at hpending ⊢
        exact hagree.started hpending hs
      · rw [List.map_append, List.mem_append, not_or] at hj
        have hne : j ≠ t.id := by simpa using hj.2
        rw [TodoList.statusOf_setStatus hpending rfl (by decide) (by decide), if_neg hne]
        exact hkept j hj.1

/-- each of these todos is asked about once, and none of them is skipped -/
theorem Agreement.answers {T : TodoList} {d : Delegator} (h : Agreement T d []) (next : Nat)
    (instructions : Todo → String) {ts : List Todo} (hts : ∀ t ∈ ts, T.statusOf t.id = some .pending)
    (hnodup : (ts.map Todo.id).Nodup) :
    (answers d T next instructions ts).map Prod.fst = ts.map Todo.id ∧
      ∀ a ∈ answers d T next instructions ts, a.2 ≠ .ok .alreadyProcessed ∧ a.2 ≠ .ok .inFlight := by
  constructor
  · refine List.ext_getElem (by simp [Loop.answers]) fun k _ _ => ?_
    simp [Loop.answers]
  · intro a ha
    obtain ⟨k, hk, rfl⟩ := List.mem_mapIdx.1 ha
    -- the todos before it are dispatched, and it is still pending
    have hsub : (ts.take k).Sublist ts := List.take_sublist k ts
    obtain ⟨hagree, hkept⟩ := h.dispatch next instructions (fun t ht => hts t (hsub.subset ht))
      (hnodup.sublist (hsub.map Todo.id))
    have hnew : ts[k].id ∉ (ts.take k).map Todo.id := by
      rw [← List.take_append_drop k ts, List.drop_eq_getElem_cons hk, List.map_append, List.map_cons] at hnodup
      intro hmem
      exact (List.nodup_append.1 hnodup).2.2 _ hmem _ List.mem_cons_self rfl
    have hpending := (hkept ts[k].id hnew).trans (hts ts[k] (List.getElem_mem hk))
    rcases hagree.delegate hpending (.minted (Loop.dispatch d T next instructions (ts.take k)).2.2)
      (instructions ts[k]) with ⟨e, he⟩ | ⟨task, name, hd, -, -⟩
    · simp [he, Except.map]
    · simp [hd, Except.map]

/-! ## Performing -/

/-- endings that are told to the delegator end tasks that run, and leave them in flight -/
theorem settle_sound {d : Delegator} (h : d.Sound) {endings : Endings} (hsome : ∀ e ∈ endings, e.2.isSome = true)
    (now : Nat) :
    (settle d endings now).Sound ∧ (settle d endings now).inFlight = d.inFlight ∧
      (settle d endings now).processed = d.processed ∧
      ∀ p ∈ (settle d endings now).running, p ∈ d.running ∧ p.1 ∉ endings.map Prod.fst := by
  induction endings using List.reverseRecOn with
  | nil => exact ⟨h, rfl, rfl, fun p hp => ⟨hp, by simp⟩⟩
  | append_singleton endings e ih =>
    obtain ⟨hsound, hflight, hprocessed, hrunning⟩ := ih fun k hk => hsome k (List.mem_append_left _ hk)
    obtain ⟨outcome, ho⟩ := Option.isSome_iff_exists.1 (hsome e (by simp))
    have hlast : settle d (endings ++ [e]) now = ((settle d endings now).finish e.1 outcome now).1 := by
      rw [settle, List.foldl_append, List.foldl_cons, List.foldl_nil, ← settle]
      simp only [ho]
    obtain ⟨hsound', hflight', hprocessed'⟩ := Delegator.finish_sound hsound e.1 outcome now
    rw [hlast]
    refine ⟨hsound', hflight'.trans hflight, hprocessed'.trans hprocessed, fun p hp => ?_⟩
    rw [Delegator.finish_running, List.mem_filter] at hp
    have hne : p.1 ≠ e.1 := by simpa using hp.2
    obtain ⟨hmem, hnot⟩ := hrunning p hp.1
    exact ⟨hmem, by simp [hnot, hne]⟩

/-- where every task ends, joining hands out a task for each todo in flight, and none is in flight any more -/
theorem performAll_sound {ω : Type} {w : World ω} (hw : w.Finishes) {d : Delegator} (h : d.Sound) (world : ω) :
    (performAll w world d).2.1.Sound ∧ (performAll w world d).2.1.inFlight = [] ∧
      (performAll w world d).2.1.processed = d.processed ∧
      ((performAll w world d).2.2.map Task.todoId).Perm d.inFlight ∧
      ∀ t ∈ (performAll w world d).2.2, ∃ outcome, t.outcome? = some outcome := by
  obtain ⟨hsome, hall⟩ := hw world d.cap d.running
  obtain ⟨hsound, hflight, hprocessed, hrunning⟩ :=
    settle_sound h hsome (w.clock (w.perform world d.cap d.running).1)
  have hnone : (settle d (w.perform world d.cap d.running).2
      (w.clock (w.perform world d.cap d.running).1)).running = [] := by
    rw [List.eq_nil_iff_forall_not_mem]
    intro p hp
    obtain ⟨hmem, hnot⟩ := hrunning p hp
    exact hnot (hall p hmem)
  obtain ⟨hsound', hempty, hjoined⟩ := Delegator.joinAll_sound hsound hnone
  exact ⟨hsound', hempty, hprocessed, hflight ▸ hjoined, fun t ht => hsound.ended t ht⟩

/-- **All running tasks performed and joined**: none is in flight any more -/
theorem Agreement.perform {ω : Type} {w : World ω} (hw : w.Finishes) {T : TodoList} {d : Delegator}
    (h : Agreement T d []) (world : ω) :
    Agreement T (performAll w world d).2.1 (performAll w world d).2.2 ∧ (performAll w world d).2.1.inFlight = [] := by
  obtain ⟨hsound, hempty, hmarked, hperm, hended⟩ := performAll_sound hw h.sound world
  refine ⟨⟨h.distinct, hsound, fun id => ?_, fun id => ?_, ?_, hended⟩, hempty⟩
  · have hbefore := h.inProgress id
    rw [List.map_nil, List.append_nil] at hbefore
    rw [hempty, List.nil_append, hbefore]
    exact hperm.mem_iff.symm
  · rw [hmarked]
    exact h.processed id
  · rw [hempty, List.nil_append]
    exact hperm.nodup_iff.2 h.sound.single

/-! ## Taking in -/

theorem Agreement.settles {T T' : TodoList} {d d' : Delegator} {t : Task} {ts : List Task}
    (h : Agreement T d (t :: ts)) (hs : Settles T d t T' d') :
    Agreement T' d' ts ∧ d'.inFlight = d.inFlight ∧
      ∃ outcome, t.outcome? = some outcome ∧
        ∀ j, T'.statusOf j = if j = t.todoId then some (statusAfter outcome) else T.statusOf j := by
  have hids := hs.ids
  obtain ⟨T₁, hsame, -, heq⟩ := hs
  obtain ⟨outcome, ho⟩ := h.ended t List.mem_cons_self
  have hprogress : T.statusOf t.todoId = some .inProgress := (h.inProgress t.todoId).2 (by simp)
  have hT : T' = (settleTodo T₁ d t).1 := congrArg Prod.fst heq
  have hd : d' = (settleTodo T₁ d t).2 := congrArg Prod.snd heq
  have hstatus : ∀ j, T'.statusOf j = if j = t.todoId then some (statusAfter outcome) else T.statusOf j := by
    intro j
    rw [hT, settleTodo_statusOf d ho ((hsame _).trans hprogress), hsame]
  obtain ⟨hsound, hflight⟩ := settleTodo_sound T₁ h.sound t
  have hmarked := settleTodo_processed T₁ d ho
  rw [← hd] at hsound hflight hmarked
  have hsingle := h.single
  rw [List.map_cons, List.nodup_middle] at hsingle
  obtain ⟨hnot, hrest⟩ := List.nodup_cons.1 hsingle
  refine ⟨⟨hids ▸ h.distinct, hsound, fun id => ?_, fun id => ?_, hflight ▸ hrest,
    fun k hk => h.ended k (List.mem_cons_of_mem _ hk)⟩, hflight, outcome, ho, hstatus⟩
  · rw [hstatus, hflight]
    split_ifs with hid
    · subst hid
      refine iff_of_false ?_ hnot
      rcases statusAfter_cases outcome with hs | hs | hs <;> simp [hs]
    · have hbefore := h.inProgress id
      simpa [hid] using hbefore
  · rw [hmarked, hstatus, h.processed]
    split_ifs with hid
    · subst hid
      rw [hprogress]
      rcases statusAfter_cases outcome with hs | hs | hs <;> simp [hs]
    · simp [hid]

/-- **Joined tasks taken in**: each of their todos has the status that its task has brought, the others stay -/
theorem Agreement.takeIn {α : Type} {view : α → TodoList} {take : α × Delegator → Task → α × Delegator}
    (htake : ∀ s t, Settles (view s.1) s.2 t (view (take s t).1) (take s t).2) (ts : List Task) {s : α × Delegator}
    (h : Agreement (view s.1) s.2 ts) :
    Agreement (view (ts.foldl take s).1) (ts.foldl take s).2 [] ∧ (ts.foldl take s).2.inFlight = s.2.inFlight ∧
      (∀ t ∈ ts, ∃ outcome, t.outcome? = some outcome ∧
        (view (ts.foldl take s).1).statusOf t.todoId = some (statusAfter outcome)) ∧
      ∀ j, j ∉ ts.map Task.todoId → (view (ts.foldl take s).1).statusOf j = (view s.1).statusOf j := by
  induction ts generalizing s with
  | nil => exact ⟨h, rfl, by simp, fun _ _ => rfl⟩
  | cons t ts ih =>
    obtain ⟨hagree, hflight, outcome, ho, hstatus⟩ := h.settles (htake s t)
    obtain ⟨hagree', hflight', hended, hkept⟩ := ih hagree
    have hnew : t.todoId ∉ ts.map Task.todoId := by
      have hsingle := (List.nodup_append.1 h.single).2.1
      exact (List.nodup_cons.1 hsingle).1
    rw [List.foldl_cons]
    refine ⟨hagree', hflight'.trans hflight, ?_, fun j hj => ?_⟩
    · intro k hk
      rcases List.mem_cons.1 hk with rfl | hk
      · exact ⟨outcome, ho, by rw [hkept _ hnew, hstatus, if_pos rfl]⟩
      · exact hended k hk
    · rw [List.map_cons, List.mem_cons, not_or] at hj
      rw [hkept j hj.2, hstatus, if_neg hj.1]

/-! ## Steps and runs -/

/-- one step of a loop: what the delegator answered to the todos that were dispatched, and the tasks that were joined -/
structure Advance (T : TodoList) (d : Delegator) (answers : List (Ident × Except DelegationError Dispatch))
    (joined : List Task) (T' : TodoList) (d' : Delegator) : Prop where
  agreement : Agreement T' d' []
  kept : ∀ id s, T.statusOf id = some s → s.isTerminal = true → T'.statusOf id = some s
  pending : ∀ a ∈ answers, T.statusOf a.1 = some .pending
  distinct : (answers.map Prod.fst).Nodup
  unskipped : ∀ a ∈ answers, a.2 ≠ .ok .alreadyProcessed ∧ a.2 ≠ .ok .inFlight
  settled : ∀ t ∈ joined, ∃ outcome, t.outcome? = some outcome ∧ T'.statusOf t.todoId = some (statusAfter outcome)
  single : (joined.map Task.todoId).Nodup
  unsettled : ∀ t ∈ joined, ∀ s, T.statusOf t.todoId = some s → s.isTerminal = false

theorem Advance.idle {T T' : TodoList} {d : Delegator} (h : Agreement T d []) (hw : TodoList.Widened T T') :
    Advance T d [] [] T' d where
  agreement := h.widened hw
  kept := by
    intro id s hs _
    rw [hw.kept id (TodoList.mem_ids_of_statusOf hs)]
    exact hs
  pending := by simp
  distinct := by simp
  unskipped := by simp
  settled := by simp
  single := by simp
  unsettled := by simp

theorem Advance.given {T : TodoList} {d : Delegator} (h : Agreement T d []) (next : Nat) (instructions : Todo → String)
    {ts : List Todo} (hts : ∀ t ∈ ts, T.statusOf t.id = some .pending) (hnodup : (ts.map Todo.id).Nodup) :
    Advance T d (Loop.answers d T next instructions ts) [] (dispatch d T next instructions ts).2.1
      (dispatch d T next instructions ts).1 := by
  obtain ⟨hagree, hkept⟩ := h.dispatch next instructions hts hnodup
  obtain ⟨hids, hunskipped⟩ := h.answers next instructions hts hnodup
  have hpending : ∀ i ∈ ts.map Todo.id, T.statusOf i = some .pending := by
    intro i hi
    obtain ⟨t, ht, rfl⟩ := List.mem_map.1 hi
    exact hts t ht
  refine ⟨hagree, fun id s hs hterminal => ?_, fun a ha => ?_, hids ▸ hnodup, hunskipped, by simp, by simp, by simp⟩
  · rw [hkept id, hs]
    intro hmem
    rw [hpending id hmem, Option.some.injEq] at hs
    subst hs
    cases hterminal
  · exact hpending a.1 (hids ▸ List.mem_map_of_mem ha)

theorem Advance.taken {ω α : Type} {w : World ω} (hw : w.Finishes) {view : α → TodoList}
    {take : α × Delegator → Task → α × Delegator}
    (htake : ∀ s t, Settles (view s.1) s.2 t (view (take s t).1) (take s t).2) {c : α} {d : Delegator}
    (h : Agreement (view c) d []) (world : ω) :
    let joined := performAll w world d
    let s := joined.2.2.foldl take (c, joined.2.1)
    Advance (view c) d [] joined.2.2 (view s.1) s.2 ∧ s.2.inFlight = [] := by
  intro joined s
  obtain ⟨hjoined, hempty⟩ := h.perform hw world
  obtain ⟨hagree, hflight, hsettled, hkept⟩ := Agreement.takeIn htake joined.2.2 (s := (c, joined.2.1)) hjoined
  -- the todos of joined tasks are in progress, and so none of those that are done with
  have hopen : ∀ id ∈ joined.2.2.map Task.todoId, ∀ st, (view c).statusOf id = some st → st.isTerminal = false := by
    intro id hid st hs
    have hprogress := (hjoined.inProgress id).2 (List.mem_append_right _ hid)
    rw [hs, Option.some.injEq] at hprogress
    rw [hprogress]
    rfl
  refine ⟨⟨hagree, fun id st hs hterminal => ?_, by simp, by simp, by simp, hsettled,
    (List.nodup_append.1 hjoined.single).2.1, fun t ht => hopen _ (List.mem_map_of_mem ht)⟩, hflight.trans hempty⟩
  rw [hkept id]
  · exact hs
  · intro hid
    rw [hopen id hid st hs] at hterminal
    cases hterminal

theorem Advance.trans {T T₁ T₂ : TodoList} {d d₁ d₂ : Delegator} {as : List (Ident × Except DelegationError Dispatch)}
    {ts : List Task} (h : Advance T d as [] T₁ d₁) (h' : Advance T₁ d₁ [] ts T₂ d₂) : Advance T d as ts T₂ d₂ where
  agreement := h'.agreement
  kept := fun id s hs hterminal => h'.kept id s (h.kept id s hs hterminal) hterminal
  pending := h.pending
  distinct := h.distinct
  unskipped := h.unskipped
  settled := h'.settled
  single := h'.single
  unsettled := fun t ht s hs => by
    cases hterminal : s.isTerminal with
    | false => rfl
    | true =>
      rw [h'.unsettled t ht s (h.kept _ s hs hterminal)] at hterminal
      cases hterminal

/-- how todos and a delegator stand on each boundary of a run, and what the step after it does with them -/
structure Course where
  todos : Nat → TodoList
  delegator : Nat → Delegator
  answers : Nat → List (Ident × Except DelegationError Dispatch)
  joined : Nat → List Task

/-- todos and delegator agree at all times, and no todo is dispatched again once it is done with -/
structure AtMostOnce (c : Course) : Prop where
  /-- the todos in progress are those in flight -/
  inProgress : ∀ n id, (∃ t ∈ (c.todos n).items, t.id = id ∧ t.status = .inProgress) ↔ id ∈ (c.delegator n).inFlight
  /-- the completed and the cancelled todos are those that are processed -/
  processed : ∀ n id, (∃ t ∈ (c.todos n).items, t.id = id ∧ (t.status = .completed ∨ t.status = .cancelled)) ↔
    id ∈ (c.delegator n).processed
  /-- a joined task has ended, and moves its todo accordingly -/
  settled : ∀ n, ∀ t ∈ c.joined n, ∃ outcome, t.outcome? = some outcome ∧
    ∃ k ∈ (c.todos (n + 1)).items, k.id = t.todoId ∧ k.status = statusAfter outcome
  /-- tasks that are joined together are about distinct todos -/
  single : ∀ n, ((c.joined n).map Task.todoId).Nodup
  /-- after a task that ended in anything but an exhaustion its todo is not dispatched again, and has no other task -/
  once : ∀ n m, n < m → ∀ t ∈ c.joined n, ∀ outcome, t.outcome? = some outcome →
    (∀ e, outcome = .error e → e.isExhaustion = false) →
    (∀ a ∈ c.answers m, a.1 ≠ t.todoId) ∧ ∀ k ∈ c.joined m, k.todoId ≠ t.todoId
  /-- todos that are dispatched together are distinct, and none of them is skipped -/
  unskipped : ∀ n, ((c.answers n).map Prod.fst).Nodup ∧
    ∀ a ∈ c.answers n, a.2 ≠ .ok .alreadyProcessed ∧ a.2 ≠ .ok .inFlight
  /-- a ready todo would not be skipped on any boundary -/
  ready : ∀ n, ∀ t ∈ (c.todos n).ready, ∀ taskId instructions,
    ((c.delegator n).delegate taskId t instructions).map Prod.snd ≠ .ok .alreadyProcessed ∧
      ((c.delegator n).delegate taskId t instructions).map Prod.snd ≠ .ok .inFlight

theorem statusAfter_isTerminal {outcome : Except GuardError Payload}
    (h : ∀ e, outcome = .error e → e.isExhaustion = false) : (statusAfter outcome).isTerminal = true := by
  cases outcome with
  | ok p => rfl
  | error e =>
    have he := h e rfl
    cases e with
    | call e => rfl
    | _ => cases he

/-- **What follows for a run from what holds of each of its steps** -/
theorem atMostOnce {c : Course} (h0 : Agreement (c.todos 0) (c.delegator 0) [])
    (h : ∀ n, Advance (c.todos n) (c.delegator n) (c.answers n) (c.joined n) (c.todos (n + 1)) (c.delegator (n + 1))) :
    AtMostOnce c := by
  have hagree : ∀ n, Agreement (c.todos n) (c.delegator n) [] := by
    intro n
    cases n with
    | zero => exact h0
    | succ n => exact (h n).agreement
  -- a status that is terminal stays, on all later boundaries
  have hkept : ∀ n m, n ≤ m → ∀ id s, (c.todos n).statusOf id = some s → s.isTerminal = true →
      (c.todos m).statusOf id = some s := by
    intro n m hnm id s hs hterminal
    induction hnm with
    | refl => exact hs
    | step _ ih => exact (h _).kept id s ih hterminal
  refine ⟨fun n id => ?_, fun n id => ?_, fun n t ht => ?_, fun n => (h n).single, ?_,
    fun n => ⟨(h n).distinct, (h n).unskipped⟩, ?_⟩
  · have hiff := (hagree n).inProgress id
    rw [List.map_nil, List.append_nil] at hiff
    rw [← hiff, TodoList.statusOf_iff (hagree n).distinct]
  · rw [(hagree n).processed id, TodoList.statusOf_iff (hagree n).distinct,
      TodoList.statusOf_iff (hagree n).distinct]
    constructor
    · rintro ⟨t, ht, hid, hs | hs⟩
      · exact Or.inl ⟨t, ht, hid, hs⟩
      · exact Or.inr ⟨t, ht, hid, hs⟩
    · rintro (⟨t, ht, hid, hs⟩ | ⟨t, ht, hid, hs⟩)
      · exact ⟨t, ht, hid, Or.inl hs⟩
      · exact ⟨t, ht, hid, Or.inr hs⟩
  · obtain ⟨outcome, ho, hs⟩ := (h n).settled t ht
    exact ⟨outcome, ho, (TodoList.statusOf_iff (hagree (n + 1)).distinct _ _).1 hs⟩
  · intro n m hnm t ht outcome ho hnot
    obtain ⟨outcome', ho', hs⟩ := (h n).settled t ht
    rw [ho, Option.some.injEq] at ho'
    subst ho'
    have hterminal := statusAfter_isTerminal hnot
    have hlater := hkept (n + 1) m hnm _ _ hs hterminal
    constructor
    · intro a ha heq
      have hpending := (h m).pending a ha
      rw [heq, hlater, Option.some.injEq] at hpending
      rw [hpending] at hterminal
      cases hterminal
    · intro k hk heq
      rw [(h m).unsettled k hk _ (heq ▸ hlater)] at hterminal
      cases hterminal
  · intro n t ht taskId instructions
    have hpending := (TodoList.ready_pending (hagree n).distinct).1 t ht
    rcases (hagree n).delegate hpending taskId instructions with ⟨e, he⟩ | ⟨task, name, hd, -, -⟩
    · simp [he, Except.map]
    · simp [hd, Except.map]

end Loop

end Foreman

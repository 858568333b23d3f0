/-
The life of a list of todos, over all its operations.

The operations come in any order and with any arguments. None of them takes a todo away or moves it from its place: each
todo stays what it is about, new todos come last, and a status changes only where `setStatus` or `requeue` asks for it
(`step_touched`). Both answer whether they have changed a status, and then it is that of one todo alone. What one
operation keeps holds after any number of them (`run_onward`).

Results:
- `step_touched`:      what an operation can do to the todos that are there.
- `setStatus_switched`, `requeue_switched`: one status changes, or nothing does, and the answer says which.
- `size_eq_counts`:    every todo is counted once.
- `todos_last`:        what holds of a list that was started empty.
-/
import Foreman.Proofs.Todo.Status

namespace Foreman

/-- the same piece of work, wherever it stands and whatever was found on it -/
structure Todo.SameWork (t t' : Todo) : Prop where
  id : t'.id = t.id
  description : t'.description = t.description
  priority : t'.priority = t.priority
  dependsOn : t'.dependsOn = t.dependsOn

namespace TodoList

/-! ## Operations -/

/-- an operation on a list of todos -/
inductive Op where
  | push (t : Todo)
  | extend (ts : List Todo)
  | setStatus (id : Ident) (s : TodoStatus)
  | requeue (id : Ident)
  | attach (id : Ident) (findings : List Ident)
  | repoint (previous current : Ident)
deriving DecidableEq, Repr

def step (l : TodoList) : Op → TodoList
  | .push t => (l.push t).1
  | .extend ts => l.extend ts
  | .setStatus id s => (l.setStatus id s).1
  | .requeue id => (l.requeue id).1
  | .attach id findings => l.attach id findings
  | .repoint previous current => l.repoint previous current

def run (l : TodoList) (ops : List Op) : TodoList := ops.foldl step l

theorem run_append (l : TodoList) (ops more : List Op) : l.run (ops ++ more) = (l.run ops).run more := by
  simp [run]

theorem run_cons (l : TodoList) (op : Op) (ops : List Op) : l.run (op :: ops) = (l.step op).run ops := rfl

/-! ## Ids -/

theorem extend_nodup {l : TodoList} (h : l.ids.Nodup) (ts : List Todo) : (l.extend ts).ids.Nodup := by
  induction ts generalizing l with
  | nil => exact h
  | cons t ts ih =>
    rw [extend, List.foldl_cons, ← extend]
    exact ih (push_nodup h t)

theorem push_ids (l : TodoList) (t : Todo) : (l.push t).1.ids = if t.id ∈ l.ids then l.ids else l.ids ++ [t.id] := by
  by_cases h : t.id ∈ l.ids
  · have hthere : (l.get? t.id).isSome = true := Option.isSome_iff_ne_none.2 fun hnone => (get?_eq_none l _).1 hnone h
    rw [push, if_pos hthere, if_pos h]
  · rw [push, (get?_eq_none l _).2 h, if_neg h]
    simp [ids]

/-- an operation that only puts other todos in the place of those that are there -/
theorem ids_map {l : TodoList} {touch : Todo → Todo} (h : ∀ t, (touch t).id = t.id) :
    (TodoList.mk (l.items.map touch)).ids = l.ids := by
  rw [ids, ids, List.map_map]
  exact List.map_congr_left fun t _ => h t

/-! ## What an operation does to the todos that are there -/

/-- the status of a todo is left alone, or changed as an operation asks for -/
inductive Led (op : Op) (t : Todo) : TodoStatus → Prop where
  | still : Led op t t.status
  | set {s : TodoStatus} (h : op = .setStatus t.id s) (hmay : mayMove t s = true) : Led op t s
  | back (h : op = .requeue t.id) (hs : t.status = .inProgress) : Led op t .pending

/-- what an operation may do to a list: the todos that are there stay what they are about, and new ones come last; where
ids are distinct they stay distinct, and statuses change only as asked -/
structure Touched (op : Op) (l l' : TodoList) (touch : Todo → Todo) (new : List Todo) : Prop where
  items : l'.items = l.items.map touch ++ new
  same : ∀ t : Todo, t.SameWork (touch t)
  nodup : l.ids.Nodup → l'.ids.Nodup
  led : l.ids.Nodup → ∀ t ∈ l.items, Led op t (touch t).status

theorem Touched.of_prefix {op : Op} {l l' : TodoList} (h : l.items <+: l'.items)
    (hn : l.ids.Nodup → l'.ids.Nodup) : ∃ new, Touched op l l' id new := by
  obtain ⟨new, hnew⟩ := h
  exact ⟨new, by rw [List.map_id, hnew], fun _ => ⟨rfl, rfl, rfl, rfl⟩, hn, fun _ _ _ => .still⟩

theorem Touched.of_modify {op : Op} {l : TodoList} {i : Ident} {f : Todo → Todo} (hf : ∀ t : Todo, t.SameWork (f t))
    (hled : l.ids.Nodup → ∀ t ∈ l.items, t.id = i → Led op t (f t).status) :
    Touched op l (l.modify i f) (fun t => if t.id = i then f t else t) [] := by
  have hsame : ∀ t : Todo, t.SameWork (if t.id = i then f t else t) := by
    intro t
    split_ifs
    · exact hf t
    · exact ⟨rfl, rfl, rfl, rfl⟩
  refine ⟨by simp [modify], hsame, fun hn => ?_, fun hn t ht => ?_⟩
  · rw [modify, ids_map fun t => (hsame t).id]
    exact hn
  · by_cases hi : t.id = i
    · rw [if_pos hi]
      exact hled hn t ht hi
    · rw [if_neg hi]
      exact .still

theorem Touched.refl (op : Op) (l : TodoList) : Touched op l l id [] :=
  ⟨by simp, fun _ => ⟨rfl, rfl, rfl, rfl⟩, id, fun _ _ _ => .still⟩

/-- where ids are distinct, the todo that is found by an id is the one that has it -/
theorem get?_eq_of_mem {l : TodoList} (h : l.ids.Nodup) {t k : Todo} (ht : t ∈ l.items) (hk : l.get? t.id = some k) :
    k = t :=
  List.inj_on_of_nodup_map h (get?_mem hk) ht (get?_id hk)

/-- **What an operation can do to the todos that are there.** -/
theorem step_touched (l : TodoList) (op : Op) : ∃ touch new, Touched op l (l.step op) touch new := by
  cases op with
  | push t =>
    have hprefix : l.items <+: (l.push t).1.items := extend_items l [t]
    exact ⟨id, Touched.of_prefix hprefix fun hn => push_nodup hn t⟩
  | extend ts => exact ⟨id, Touched.of_prefix (extend_items l ts) fun hn => extend_nodup hn ts⟩
  | setStatus i s =>
    simp only [step, setStatus]
    split
    · rename_i k hk
      split_ifs with hmay
      · refine ⟨_, _, Touched.of_modify (fun t => ⟨rfl, rfl, rfl, rfl⟩) fun hn t ht hi => ?_⟩
        subst hi
        rw [get?_eq_of_mem hn ht hk] at hmay
        exact .set rfl hmay
      · exact ⟨_, _, .refl _ l⟩
    · exact ⟨_, _, .refl _ l⟩
  | requeue i =>
    simp only [step, requeue]
    split
    · rename_i k hk
      split_ifs with hprogress
      · refine ⟨_, _, Touched.of_modify (fun t => ⟨rfl, rfl, rfl, rfl⟩) fun hn t ht hi => ?_⟩
        subst hi
        rw [get?_eq_of_mem hn ht hk] at hprogress
        exact .back rfl hprogress
      · exact ⟨_, _, .refl _ l⟩
    · exact ⟨_, _, .refl _ l⟩
  | attach i findings =>
    exact ⟨_, _, Touched.of_modify (fun t => ⟨rfl, rfl, rfl, rfl⟩) fun _ _ _ _ => .still⟩
  | repoint previous current =>
    let touch : Todo → Todo := fun t => { t with findingIds := repointIds t.findingIds previous current }
    have hids : (l.repoint previous current).ids = l.ids := ids_map fun t => (rfl : (touch t).id = t.id)
    exact ⟨touch, [], by simp [step, repoint, touch], fun t => ⟨rfl, rfl, rfl, rfl⟩, fun hn => hids ▸ hn,
      fun _ _ _ => .still⟩

/-! ## Operations keep what is over -/

/-- a list later on: ids stay in their places, and what is completed or cancelled stays so -/
structure Onward (l l' : TodoList) : Prop where
  ids : l.ids <+: l'.ids
  final : ∀ i s, l.statusOf i = some s → s.isTerminal = true → l'.statusOf i = some s
  nodup : l'.ids.Nodup

theorem Onward.trans {a b c : TodoList} (h : Onward a b) (h' : Onward b c) : Onward a c where
  ids := h.ids.trans h'.ids
  final := fun i s hs hterminal => h'.final i s (h.final i s hs hterminal) hterminal
  nodup := h'.nodup

theorem Touched.statusOf {op : Op} {l l' : TodoList} {touch : Todo → Todo} {new : List Todo}
    (h : Touched op l l' touch new) (hn : l.ids.Nodup) {i : Ident} {s : TodoStatus} (hs : l.statusOf i = some s) :
    ∃ t ∈ l.items, t.id = i ∧ t.status = s ∧ l'.statusOf i = some (touch t).status ∧ Led op t (touch t).status := by
  obtain ⟨t, ht, hti, hts⟩ := (statusOf_iff hn i s).1 hs
  refine ⟨t, ht, hti, hts, ?_, h.led hn t ht⟩
  have hthere : touch t ∈ l'.items := by
    rw [h.items]
    exact List.mem_append_left _ (List.mem_map_of_mem ht)
  exact (statusOf_iff (h.nodup hn) i _).2 ⟨touch t, hthere, (h.same t).id.trans hti, rfl⟩

theorem Led.final {op : Op} {t : Todo} {s : TodoStatus} (h : Led op t s) (hterminal : t.status.isTerminal = true) :
    s = t.status := by
  cases h with
  | still => rfl
  | set _ hmay => simp [mayMove, hterminal] at hmay
  | back _ hs =>
    rw [hs] at hterminal
    cases hterminal

/-- only putting it back makes a todo in progress pending again -/
theorem Led.back_only {op : Op} {t : Todo} (h : Led op t .pending) (hs : t.status = .inProgress) :
    op = .requeue t.id := by
  generalize hp : TodoStatus.pending = p at h
  cases h with
  | still =>
    rw [hs] at hp
    cases hp
  | set _ hmay =>
    subst hp
    simp [mayMove, hs] at hmay
  | back hop _ => exact hop

theorem step_onward {l : TodoList} (h : l.ids.Nodup) (op : Op) : Onward l (l.step op) := by
  obtain ⟨touch, new, htouched⟩ := step_touched l op
  refine ⟨?_, fun i s hs hterminal => ?_, htouched.nodup h⟩
  · have hkept : (l.items.map touch).map Todo.id = l.ids := ids_map fun t => (htouched.same t).id
    have hafter : (l.step op).ids = l.ids ++ new.map Todo.id := by
      rw [← hkept, ← List.map_append, ← htouched.items]
      rfl
    rw [hafter]
    exact List.prefix_append _ _
  · obtain ⟨t, -, -, hts, hafter, hled⟩ := htouched.statusOf h hs
    rw [hafter, hled.final (hts ▸ hterminal), hts]

/-- **What operations keep**, in any order and with any arguments. -/
theorem run_onward {l : TodoList} (h : l.ids.Nodup) (ops : List Op) : Onward l (l.run ops) := by
  induction ops generalizing l with
  | nil => exact ⟨List.prefix_refl _, fun _ _ hs _ => hs, h⟩
  | cons op ops ih =>
    have hstep := step_onward h op
    rw [run_cons]
    exact hstep.trans (ih hstep.nodup)

/-! ## Changes of status and their answers -/

/-- a status was changed or not, as the answer says: then it is that of one todo and nothing else -/
inductive Switched (l l' : TodoList) (i : Ident) (s : TodoStatus) : Bool → Prop where
  | changed {before after : List Todo} {t : Todo} (h : l.items = before ++ t :: after) (hi : t.id = i)
      (hs : t.status ≠ s) (h' : l'.items = before ++ { t with status := s } :: after) : Switched l l' i s true
  | unchanged (h : l' = l) : Switched l l' i s false

theorem modify_split {l : TodoList} (h : l.ids.Nodup) {t : Todo} {i : Ident} (ht : l.get? i = some t)
    (f : Todo → Todo) :
    ∃ before after, l.items = before ++ t :: after ∧ (l.modify i f).items = before ++ f t :: after := by
  obtain ⟨before, after, hsplit⟩ := List.append_of_mem (get?_mem ht)
  have hti : t.id = i := get?_id ht
  rw [ids, hsplit, List.map_append, List.map_cons, List.nodup_append, List.nodup_cons] at h
  obtain ⟨-, ⟨hafter, -⟩, hapart⟩ := h
  have hothers : ∀ ts : List Todo, (∀ k ∈ ts, k.id ≠ i) → ts.map (fun k => if k.id = i then f k else k) = ts := by
    intro ts hts
    have hsame : ts.map (fun k => if k.id = i then f k else k) = ts.map id :=
      List.map_congr_left fun k hk => if_neg (hts k hk)
    rw [hsame, List.map_id]
  refine ⟨before, after, hsplit, ?_⟩
  simp only [modify, hsplit, List.map_append, List.map_cons, if_pos hti]
  rw [hothers before, hothers after]
  · intro k hk hki
    exact hafter (List.mem_map.2 ⟨k, hk, hki.trans hti.symm⟩)
  · intro k hk hki
    exact hapart k.id (List.mem_map_of_mem hk) t.id List.mem_cons_self (hki.trans hti.symm)

theorem setStatus_switched {l : TodoList} (h : l.ids.Nodup) (i : Ident) (s : TodoStatus) :
    Switched l (l.setStatus i s).1 i s (l.setStatus i s).2 := by
  unfold setStatus
  split
  · rename_i t ht
    split_ifs with hmay
    · obtain ⟨before, after, hsplit, hsplit'⟩ := modify_split h ht fun t => { t with status := s }
      have hne : t.status ≠ s := by
        rintro rfl
        simp [mayMove] at hmay
      exact .changed hsplit (get?_id ht) hne hsplit'
    · exact .unchanged rfl
  · exact .unchanged rfl

theorem requeue_switched {l : TodoList} (h : l.ids.Nodup) (i : Ident) :
    Switched l (l.requeue i).1 i .pending (l.requeue i).2 := by
  unfold requeue
  split
  · rename_i t ht
    split_ifs with hprogress
    · obtain ⟨before, after, hsplit, hsplit'⟩ := modify_split h ht fun t => { t with status := .pending }
      exact .changed hsplit (get?_id ht) (by simp [hprogress]) hsplit'
    · exact .unchanged rfl
  · exact .unchanged rfl

/-- a status only moves forward, and nothing leaves a final one -/
theorem mayMove_iff (t : Todo) (s : TodoStatus) :
    mayMove t s = true ↔
      t.status.isTerminal = false ∧ t.status ≠ s ∧ ¬(t.status = .inProgress ∧ s = .pending) := by
  simp [mayMove, and_assoc, Decidable.imp_iff_not_or]

theorem setStatus_answer (l : TodoList) (i : Ident) (s : TodoStatus) :
    (l.setStatus i s).2 = true ↔
      ∃ old, l.statusOf i = some old ∧ old.isTerminal = false ∧ old ≠ s ∧ ¬(old = .inProgress ∧ s = .pending) := by
  unfold setStatus
  cases ht : l.get? i with
  | none => simp [statusOf, ht]
  | some t =>
    have hstatus : l.statusOf i = some t.status := by simp [statusOf, ht]
    simp only [hstatus, Option.some.injEq, exists_eq_left', ← mayMove_iff]
    cases mayMove t s <;> simp

theorem requeue_answer (l : TodoList) (i : Ident) : (l.requeue i).2 = true ↔ l.statusOf i = some .inProgress := by
  unfold requeue
  cases ht : l.get? i with
  | none => simp [statusOf, ht]
  | some t => by_cases hs : t.status = .inProgress <;> simp [statusOf, ht, hs]

/-! ## Counts -/

/-- **Every todo is counted once**, by its status. -/
theorem size_eq_counts (l : TodoList) :
    l.size = l.unresolved + l.count .completed + l.count .cancelled ∧
      l.size = l.count .pending + l.count .inProgress + l.count .completed + l.count .cancelled := by
  obtain ⟨items⟩ := l
  simp only [size, unresolved, count]
  induction items with
  | nil => exact ⟨rfl, rfl⟩
  | cons t items ih =>
    obtain ⟨hopen, hall⟩ := ih
    have hstatus : t.status.isTerminal = (t.status == .completed || t.status == .cancelled) := by
      cases t.status <;> rfl
    simp only [List.length_cons, List.countP_cons, hstatus]
    cases t.status <;> simp <;> omega

/-! ## Runs -/

/-- what holds of a list after operations from the empty one, and of all that comes after them -/
structure Lasting (ops : List Op) : Prop where
  distinct : (empty.run ops).ids.Nodup
  /-- todos are added at the end and never taken away -/
  kept : ∀ more, (empty.run ops).ids <+: (empty.run (ops ++ more)).ids
  pushed : ∀ t, (empty.run (ops ++ [.push t])).ids =
    if t.id ∈ (empty.run ops).ids then (empty.run ops).ids else (empty.run ops).ids ++ [t.id]
  /-- what is completed or cancelled stays so -/
  final : ∀ more i s, (empty.run ops).statusOf i = some s → s.isTerminal = true →
    (empty.run (ops ++ more)).statusOf i = some s
  /-- only putting it back makes a todo in progress pending -/
  back : ∀ op i, (empty.run ops).statusOf i = some .inProgress →
    (empty.run (ops ++ [op])).statusOf i = some .pending → op = .requeue i
  /-- setting a status changes that status and nothing else, or nothing at all, and says so -/
  set : ∀ i s, Switched (empty.run ops) ((empty.run ops).setStatus i s).1 i s ((empty.run ops).setStatus i s).2
  setAnswer : ∀ i s, ((empty.run ops).setStatus i s).2 = true ↔
    ∃ old, (empty.run ops).statusOf i = some old ∧ old.isTerminal = false ∧ old ≠ s ∧
      ¬(old = .inProgress ∧ s = .pending)
  /-- so does putting a todo back -/
  requeue : ∀ i, Switched (empty.run ops) ((empty.run ops).requeue i).1 i .pending ((empty.run ops).requeue i).2
  requeueAnswer : ∀ i, ((empty.run ops).requeue i).2 = true ↔ (empty.run ops).statusOf i = some .inProgress
  counted : (empty.run ops).size =
    (empty.run ops).unresolved + (empty.run ops).count .completed + (empty.run ops).count .cancelled
  countedAll : (empty.run ops).size =
    (TodoStatus.all.map (empty.run ops).count).sum

/-- **Todos are never lost, and what is over stays over**, whatever is done with the list. -/
theorem todos_last (ops : List Op) : Lasting ops := by
  have hn : (empty.run ops).ids.Nodup := (run_onward (l := empty) List.nodup_nil ops).nodup
  obtain ⟨hcounted, hall⟩ := size_eq_counts (empty.run ops)
  refine ⟨hn, fun more => ?_, fun t => ?_, fun more i s hs hterminal => ?_, fun op i hprogress hpending => ?_,
    setStatus_switched hn, setStatus_answer _, requeue_switched hn, requeue_answer _, hcounted, ?_⟩
  · rw [run_append]
    exact (run_onward hn more).ids
  · rw [run_append]
    exact push_ids _ t
  · rw [run_append]
    exact (run_onward hn more).final i s hs hterminal
  · obtain ⟨touch, new, htouched⟩ := step_touched (empty.run ops) op
    obtain ⟨t, -, rfl, hts, hafter, hled⟩ := htouched.statusOf hn hprogress
    rw [run_append] at hpending
    have hback : (touch t).status = .pending := Option.some.inj (hafter.symm.trans hpending)
    rw [hback] at hled
    exact hled.back_only hts
  · simpa [TodoStatus.all, Nat.add_assoc] using hall

/-- a todo is pushed twice, cancelled, and asked for again: it stays as it was -/
example :
    let t := Todo.fresh (.given "x") "x" .low
    let l := empty.run [.push t, .setStatus t.id .inProgress, .requeue t.id, .push { t with status := .completed },
      .setStatus t.id .cancelled, .setStatus t.id .inProgress, .requeue t.id]
    l.items = [{ t with status := .cancelled }] := by
  decide

end TodoList

end Foreman

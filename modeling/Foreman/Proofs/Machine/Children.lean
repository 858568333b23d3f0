/-
What a parent hears of its children, over all that it does with them.

A parent registers children, moves them, sends them away and reads their reports, in any order; a name may be taken again
by another child while reports of the last one are still unread. Children of several kinds are children whose states are
those of all kinds taken together. One operation reads reports or adds the one of the move that it makes (`turn_reports`),
and it changes the state of the child of one name at most (`stateOf_step`); both add up over any run.

Results:
- `transitionAt_eq`:  a child that is moved in place is moved as a whole or not at all.
- `transition_made`:  when a child is moved, and what is said of it.
- `turn_reports`, `stateOf_step`: what one operation does to the reports and to a child.
- `reports_complete`: what was read and what is unread are the moves that were made, and the last of them tells where a
  child stands.
-/
import Foreman.Proofs.Keyed
import Foreman.Proofs.Machine.Station

namespace Foreman.Children

variable {σ γ ω : Type}

/-! ## Children under names -/

theorem lookup_cons_if (p : String × Machine σ γ) (machines : List (String × Machine σ γ)) (name : String) :
    (p :: machines).lookup name = if p.1 = name then some p.2 else machines.lookup name := by
  obtain ⟨n, k⟩ := p
  by_cases h : n = name
  · rw [List.lookup_cons, beq_iff_eq.2 h.symm, if_pos h]
  · rw [List.lookup_cons, beq_false_of_ne (Ne.symm h), if_neg h]

theorem lookup_put (name other : String) (m : Machine σ γ) (machines : List (String × Machine σ γ)) :
    (put name m machines).lookup other = if name = other then some m else machines.lookup other := by
  induction machines with
  | nil => rw [put, lookup_cons_if]
  | cons p machines ih =>
    obtain ⟨n, k⟩ := p
    by_cases hn : n = name
    · subst hn
      simp only [put, if_true, lookup_cons_if]
      split_ifs <;> rfl
    · simp only [put, if_neg hn, lookup_cons_if, ih]
      by_cases h : n = other
      · rw [if_pos h, if_neg fun h' => hn (h.trans h'.symm), if_pos h]
      · rw [if_neg h, if_neg h]

theorem put_self {name : String} {m : Machine σ γ} {machines : List (String × Machine σ γ)}
    (h : machines.lookup name = some m) : put name m machines = machines := by
  induction machines with
  | nil => cases h
  | cons p machines ih =>
    obtain ⟨n, k⟩ := p
    rw [lookup_cons_if] at h
    by_cases hn : n = name
    · rw [if_pos hn] at h
      rw [put, if_pos hn, ← Option.some.inj h]
    · rw [if_neg hn] at h
      rw [put, if_neg hn, ih h]

theorem lookup_filter (name other : String) (machines : List (String × Machine σ γ)) :
    (machines.filter fun p => p.1 ≠ name).lookup other = if name = other then none else machines.lookup other := by
  rw [Keyed.lookup_remove]
  exact if_congr eq_comm rfl rfl

/-! ## Children after a change -/

section

variable [StateName σ]

theorem stateOf_put (c : Children γ σ) (name other : String) (m : Machine σ γ) (reports : List ChildReport) :
    stateOf { c with machines := put name m c.machines, reports := reports } other =
      if name = other then some (StateName.name m.state) else c.stateOf other := by
  rw [stateOf, get?, lookup_put]
  split_ifs <;> rfl

theorem stateOf_remove (c : Children γ σ) (name other : String) :
    (c.remove name).1.stateOf other = if name = other then none else c.stateOf other := by
  rw [remove, stateOf, get?, lookup_filter]
  split_ifs <;> rfl

end

variable [DecidableEq σ] [StateName σ]

/-! ## Operations -/

variable (σ γ) in
/-- what a parent does with its children -/
inductive Op where
  | register (name : String) (draft : Draft σ γ) (hasStore : Bool) (observers : Nat) (data : γ)
  | transition (name state : String)
  | remove (name : String)
  | drain

/-- what a parent is answered -/
inductive Answer where
  | done
  | refused (e : MachineError)
  | removed (there : Bool)
  | drained (reports : List ChildReport)
deriving DecidableEq

/-- the reason of a refusal -/
def Answer.reason? : Answer → Option MachineError
  | .refused e => some e
  | _ => none

def step (c : Children γ σ) : Op σ γ → Children γ σ × Answer
  | .register name draft hasStore observers data =>
    match c.register name draft hasStore observers data with
    | .ok c' => (c', .done)
    | .error e => (c, .refused e)
  | .transition name state =>
    match c.transition name state with
    | .ok (c', _) => (c', .done)
    | .error e => (c, .refused e)
  | .remove name => ((c.remove name).1, .removed (c.remove name).2)
  | .drain => (c.drain.1, .drained c.drain.2)

def run (c : Children γ σ) (ops : List (Op σ γ)) : Children γ σ := ops.foldl (fun c op => (c.step op).1) c

theorem run_append (c : Children γ σ) (ops more : List (Op σ γ)) : c.run (ops ++ more) = (c.run ops).run more := by
  simp [run]

/-- one operation of a run: the children that it meets, and what is done -/
structure Turn (σ γ : Type) where
  children : Children γ σ
  op : Op σ γ

namespace Turn

def result (t : Turn σ γ) : Children γ σ × Answer := t.children.step t.op

/-- the move of a child that is made in a turn, from its state before to its state after -/
def made? (t : Turn σ γ) : Option ChildReport :=
  match t.op, t.result.2 with
  | .transition name _, .done =>
    (t.children.stateOf name).bind fun a => (t.result.1.stateOf name).map fun b => ⟨t.children.parentId, name, a, b⟩
  | _, _ => none

def drained (t : Turn σ γ) : List ChildReport :=
  match t.result.2 with
  | .drained reports => reports
  | _ => []

end Turn

def turns (c : Children γ σ) : List (Op σ γ) → List (Turn σ γ)
  | [] => []
  | op :: ops => ⟨c, op⟩ :: turns (c.step op).1 ops

/-- the moves of children that operations make, the oldest first -/
def moves (c : Children γ σ) (ops : List (Op σ γ)) : List ChildReport := (turns c ops).filterMap Turn.made?

theorem turns_snoc (c : Children γ σ) (ops : List (Op σ γ)) (op : Op σ γ) :
    turns c (ops ++ [op]) = turns c ops ++ [⟨c.run ops, op⟩] := by
  induction ops generalizing c with
  | nil => rfl
  | cons op' ops ih => simp [turns, run, ih]

theorem moves_snoc (c : Children γ σ) (ops : List (Op σ γ)) (op : Op σ γ) :
    moves c (ops ++ [op]) = moves c ops ++ (Turn.made? ⟨c.run ops, op⟩).toList := by
  rw [moves, turns_snoc, List.filterMap_append, ← moves, List.filterMap_cons, List.filterMap_nil]
  cases Turn.made? ⟨c.run ops, op⟩ <;> rfl

/-! ## A move of a child -/

/-- a child moved in place, with the reason if it is refused: the machine is put back as the move has left it, and the
reports are what the move has made of them -/
def transitionAt (intake : Intake σ ω) (w : ω) (c : Children γ σ) (name state : String) :
    Children γ σ × Option MachineError :=
  match c.get? name with
  | none => (c, some (.illegalMove (c.parentId ++ "/<missing:" ++ name ++ ">") state))
  | some m =>
    let q := (Station.mk m w (some (c.parentId, name)) c.reports []).moveToNamed intake state
    ({ c with machines := put name q.1.machine c.machines, reports := q.1.reports }, q.2)

/-- **A child that is moved in place is moved as a whole or not at all**: a move that is refused has left every child
and all reports as they were. -/
theorem transitionAt_eq (intake : Intake σ ω) (w : ω) (c : Children γ σ) (name state : String) :
    c.transitionAt intake w name state =
      ((c.step (.transition name state)).1, (c.step (.transition name state)).2.reason?) := by
  cases hm : c.get? name with
  | none => simp [transitionAt, step, transition, hm, Answer.reason?]
  | some m =>
    have hback : ({ c with machines := put name m c.machines } : Children γ σ) = c := by rw [put_self hm]
    cases hs : m.definition.stateNamed state with
    | none =>
      simp [transitionAt, step, transition, hm, Station.moveToNamed, Machine.moveToNamed, hs, Except.map, hback,
        Answer.reason?]
    | some s =>
      simp only [transitionAt, step, transition, hm, Station.moveToNamed, Machine.moveToNamed, hs, Station.moveTo_eq]
      cases hr : m.moveTo s with
      | error e => simp [Except.map, hback, Answer.reason?]
      | ok r =>
        obtain ⟨-, hmoved⟩ := Machine.moveTo_ok hr
        simp [Except.map, Station.reportOf, hmoved, Machine.moved, Answer.reason?]

/-- a move to the state of a name is made where the state is declared and nothing stands against the move -/
theorem moveToNamed_ok_iff {m n : Machine σ γ} {state : String} :
    (∃ signals, m.moveToNamed state = .ok (n, signals)) ↔
      ∃ s, m.definition.stateNamed state = some s ∧ m.Free s ∧ n = m.moved s := by
  cases hs : m.definition.stateNamed state with
  | none => simp [Machine.moveToNamed, hs]
  | some s =>
    simp only [Machine.moveToNamed, hs, Option.some.injEq, exists_eq_left']
    constructor
    · rintro ⟨signals, h⟩
      obtain ⟨-, hmoved⟩ := Machine.moveTo_ok h
      refine ⟨⟨?_, ?_⟩, hmoved⟩
      · by_contra hallowed
        obtain ⟨e, he⟩ := Machine.moveTo_refused (s := s) (by simpa using hallowed)
        rw [he] at h
        cases h
      · intro g hg
        by_contra hcheck
        obtain ⟨e, he⟩ := Machine.moveTo_guarded hg (by simpa using hcheck)
        rw [he] at h
        cases h
    · rintro ⟨hfree, rfl⟩
      exact ⟨_, Machine.moveTo_free hfree⟩

omit [DecidableEq σ] in
theorem stateNamed_name {d : Definition σ γ} {state : String} {s : σ} (h : d.stateNamed state = some s) :
    StateName.name s = state := by
  simpa using List.find?_some h

/-- **When a child is moved, and what is said of it**: the child is there, it declares the state, and nothing stands
against the move. -/
theorem transition_made (c : Children γ σ) (name state : String) :
    (∃ m s, c.get? name = some m ∧ m.definition.stateNamed state = some s ∧ m.Free s ∧
        c.step (.transition name state) =
          ({ c with
              machines := put name (m.moved s) c.machines
              reports := c.reports ++ [⟨c.parentId, name, StateName.name m.state, state⟩] }, .done)) ∨
      (¬∃ m s, c.get? name = some m ∧ m.definition.stateNamed state = some s ∧ m.Free s) ∧
        ∃ e, c.step (.transition name state) = (c, .refused e) := by
  cases hm : c.get? name with
  | none =>
    refine Or.inr ⟨by simp, .illegalMove (c.parentId ++ "/<missing:" ++ name ++ ">") state, ?_⟩
    simp only [step, transition, hm]
  | some m =>
    by_cases h : ∃ s, m.definition.stateNamed state = some s ∧ m.Free s
    · obtain ⟨s, hs, hfree⟩ := h
      obtain ⟨signals, hmove⟩ := moveToNamed_ok_iff.2 ⟨s, hs, hfree, rfl⟩
      refine Or.inl ⟨m, s, rfl, hs, hfree, ?_⟩
      simp [step, transition, hm, hmove, Except.map, Machine.moved, stateNamed_name hs]
    · refine Or.inr ⟨by simpa using h, ?_⟩
      cases hmove : m.moveToNamed state with
      | error e => exact ⟨e, by simp [step, transition, hm, hmove, Except.map]⟩
      | ok r =>
        obtain ⟨s, hs, hfree, -⟩ := moveToNamed_ok_iff.1 ⟨r.2, hmove⟩
        exact absurd ⟨s, hs, hfree⟩ h

/-! ## What an operation does -/

namespace Op

/-- the name of the initial state of a child that an operation registers under a name -/
def initial? (name : String) : Op σ γ → Option String
  | .register n draft _ _ _ => if n = name then draft.check.toOption.map fun d => StateName.name d.initial else none
  | _ => none

/-- whether an operation sends away the child of a name -/
def removes (name : String) : Op σ γ → Bool
  | .remove n => n = name
  | _ => false

end Op

/-- the state that the child of a name has come to by the last of some moves -/
def lastTarget (name : String) (reports : List ChildReport) : Option String :=
  (reports.filter fun r => r.child = name).getLast?.map ChildReport.target

theorem lastTarget_append (name : String) (reports more : List ChildReport) :
    lastTarget name (reports ++ more) = (lastTarget name more).or (lastTarget name reports) := by
  simp [lastTarget, List.getLast?_append, Option.map_or]

theorem made_transition {c : Children γ σ} {name state : String}
    (h : (c.step (.transition name state)).2 = .done) :
    ∃ a, c.stateOf name = some a ∧ (c.step (.transition name state)).1.stateOf name = some state ∧
      Turn.made? ⟨c, .transition name state⟩ = some ⟨c.parentId, name, a, state⟩ := by
  rcases transition_made c name state with ⟨m, s, hm, hs, -, hstep⟩ | ⟨-, e, hstep⟩
  · have hbefore : c.stateOf name = some (StateName.name m.state) := by simp [stateOf, hm]
    have hafter : (c.step (.transition name state)).1.stateOf name = some state := by
      rw [hstep, stateOf_put, if_pos rfl, Machine.moved, stateNamed_name hs]
    refine ⟨_, hbefore, hafter, ?_⟩
    simp [Turn.made?, Turn.result, h, hbefore, hafter]
  · rw [hstep] at h
    cases h

/-- **An operation reads the reports or adds the one of the move that it makes.** -/
theorem turn_reports (t : Turn σ γ) :
    t.drained ++ t.result.1.reports = t.children.reports ++ t.made?.toList := by
  obtain ⟨c, op⟩ := t
  cases op with
  | register name draft hasStore observers data =>
    cases h : draft.check <;> simp [Turn.drained, Turn.made?, Turn.result, step, register, h, Except.map]
  | transition name state =>
    rcases transition_made c name state with ⟨m, s, hm, -, -, hstep⟩ | ⟨-, e, hstep⟩
    · obtain ⟨a, ha, -, hmade⟩ := made_transition (congrArg Prod.snd hstep)
      have hstate : a = StateName.name m.state := by simpa [stateOf, hm] using ha.symm
      simp [hmade, Turn.drained, Turn.result, hstep, hstate]
    · simp [Turn.drained, Turn.made?, Turn.result, hstep]
  | remove name => simp [Turn.drained, Turn.made?, Turn.result, step, remove]
  | drain => simp [Turn.drained, Turn.made?, Turn.result, step, drain]

/-- **Where an operation leaves the child of a name**: nowhere if it sends it away, else in the initial state if it
registers it, in the state that it moves it to, or where it was. -/
theorem stateOf_step (c : Children γ σ) (op : Op σ γ) (name : String) :
    (c.step op).1.stateOf name =
      if op.removes name then none
      else ((op.initial? name).or (lastTarget name (Turn.made? ⟨c, op⟩).toList)).or (c.stateOf name) := by
  cases op with
  | register n draft hasStore observers data =>
    cases h : draft.check with
    | error e => simp [step, register, h, Except.map, Op.removes, Op.initial?, Turn.made?, lastTarget, Except.toOption]
    | ok d =>
      have hafter := stateOf_put c n name (Machine.start d hasStore observers data) c.reports
      simp only [step, register, h, Except.map, hafter]
      by_cases hn : n = name <;>
        simp [hn, h, Op.removes, Op.initial?, Turn.made?, lastTarget, Except.toOption, Machine.start]
  | transition n state =>
    rcases transition_made c n state with ⟨m, s, -, hs, -, hstep⟩ | ⟨-, e, hstep⟩
    · obtain ⟨a, -, -, hmade⟩ := made_transition (congrArg Prod.snd hstep)
      rw [hstep, stateOf_put, hmade]
      by_cases hn : n = name <;> simp [hn, Op.removes, Op.initial?, lastTarget, Machine.moved, stateNamed_name hs]
    · simp [hstep, Turn.made?, Turn.result, Op.removes, Op.initial?, lastTarget]
  | remove n =>
    have hafter := stateOf_remove c n name
    simp only [step, hafter]
    by_cases hn : n = name <;> simp [hn, Op.removes, Op.initial?, Turn.made?, lastTarget]
  | drain => simp [step, drain, stateOf, get?, Op.removes, Op.initial?, Turn.made?, lastTarget]

theorem step_parentId (c : Children γ σ) (op : Op σ γ) : (c.step op).1.parentId = c.parentId := by
  cases op with
  | register name draft hasStore observers data =>
    cases h : draft.check <;> simp [step, register, h, Except.map]
  | transition name state =>
    rcases transition_made c name state with ⟨m, s, -, -, -, hstep⟩ | ⟨-, e, hstep⟩ <;> rw [hstep]
  | remove name => rfl
  | drain => rfl

/-! ## What operations add up to -/

/-- **What was read and what is unread are the moves that were made**, after what was unread before. -/
theorem run_reports (c : Children γ σ) (ops : List (Op σ γ)) :
    (turns c ops).flatMap Turn.drained ++ (c.run ops).reports = c.reports ++ moves c ops := by
  induction ops using List.reverseRecOn with
  | nil => simp [turns, run, moves]
  | append_singleton ops op ih =>
    have hturn := turn_reports ⟨c.run ops, op⟩
    have hrun : c.run (ops ++ [op]) = (Turn.mk (c.run ops) op).result.1 := by simp [run, Turn.result]
    calc (turns c (ops ++ [op])).flatMap Turn.drained ++ (c.run (ops ++ [op])).reports
        = (turns c ops).flatMap Turn.drained ++
            (Turn.drained ⟨c.run ops, op⟩ ++ (Turn.mk (c.run ops) op).result.1.reports) := by
          rw [turns_snoc, hrun]
          simp
      _ = (turns c ops).flatMap Turn.drained ++ ((c.run ops).reports ++ (Turn.made? ⟨c.run ops, op⟩).toList) := by
          rw [hturn]
      _ = c.reports ++ moves c (ops ++ [op]) := by rw [← List.append_assoc, ih, moves_snoc, List.append_assoc]

/-- a child that is neither replaced nor sent away stands where the last of its moves has led it -/
theorem run_stateOf {c : Children γ σ} {name : String} {ops : List (Op σ γ)}
    (h : ∀ op ∈ ops, op.initial? name = none ∧ op.removes name = false) :
    (c.run ops).stateOf name = (lastTarget name (moves c ops)).or (c.stateOf name) := by
  induction ops using List.reverseRecOn with
  | nil => rfl
  | append_singleton ops op ih =>
    obtain ⟨hinitial, hremoves⟩ := h op (by simp)
    have hbefore := ih fun o ho => h o (List.mem_append_left _ ho)
    rw [run_append, moves_snoc, lastTarget_append, Option.or_assoc, ← hbefore]
    exact (stateOf_step _ op name).trans (by simp [hinitial, hremoves])

theorem absent_unmoved {c : Children γ σ} {name : String} (h : c.stateOf name = none) (op : Op σ γ) :
    lastTarget name (Turn.made? ⟨c, op⟩).toList = none := by
  cases op with
  | transition n state =>
    rcases transition_made c n state with ⟨m, s, -, -, -, hstep⟩ | ⟨-, e, hstep⟩
    · obtain ⟨a, ha, -, hmade⟩ := made_transition (congrArg Prod.snd hstep)
      have hn : n ≠ name := by
        rintro rfl
        rw [h] at ha
        cases ha
      simp [hmade, lastTarget, hn]
    · simp [Turn.made?, Turn.result, hstep, lastTarget]
  | register | remove | drain => simp [Turn.made?, lastTarget]

/-- a name under which nobody was registered, or only children who were sent away later -/
def Vacant (name : String) (ops : List (Op σ γ)) : Prop :=
  ∀ before op after s, ops = before ++ op :: after → op.initial? name = some s → ∃ o ∈ after, o.removes name = true

theorem run_vacant {c : Children γ σ} {name : String} {ops : List (Op σ γ)} (hc : c.stateOf name = none)
    (h : Vacant name ops) : (c.run ops).stateOf name = none := by
  induction ops using List.reverseRecOn with
  | nil => exact hc
  | append_singleton ops op ih =>
    have hstep := stateOf_step (c.run ops) op name
    have hrun : c.run (ops ++ [op]) = ((c.run ops).step op).1 := by simp [run]
    rw [hrun, hstep]
    split_ifs with hremoves
    · rfl
    · have hinitial : op.initial? name = none := by
        by_contra hsome
        obtain ⟨s, hs⟩ := Option.ne_none_iff_exists'.1 hsome
        obtain ⟨o, ho, -⟩ := h ops op [] s rfl hs
        cases ho
      have hbefore : (c.run ops).stateOf name = none := by
        refine ih fun before o after s hsplit hs => ?_
        obtain ⟨o', ho', hremoved⟩ := h before o (after ++ [op]) s (by simp [hsplit]) hs
        rcases List.mem_append.1 ho' with ho' | ho'
        · exact ⟨o', ho', hremoved⟩
        · rw [List.mem_singleton.1 ho'] at hremoved
          exact absurd hremoved hremoves
      simp [hinitial, absent_unmoved hbefore, hbefore]

theorem turns_parentId {c : Children γ σ} {ops : List (Op σ γ)} :
    ∀ t ∈ turns c ops, t.children.parentId = c.parentId := by
  induction ops generalizing c with
  | nil => simp [turns]
  | cons op ops ih =>
    intro t ht
    rcases List.mem_cons.1 ht with rfl | ht
    · rfl
    · exact (ih t ht).trans (step_parentId c op)

theorem Turn.made?_asked {t : Turn σ γ} {r : ChildReport} (h : t.made? = some r) :
    t.op = .transition r.child r.target ∧ t.result.2 = .done := by
  obtain ⟨c, op⟩ := t
  cases op with
  | transition name state =>
    rcases transition_made c name state with ⟨m, s, -, -, -, hstep⟩ | ⟨-, e, hstep⟩
    · obtain ⟨a, -, -, hmade⟩ := made_transition (congrArg Prod.snd hstep)
      obtain rfl := Option.some.inj (hmade.symm.trans h)
      exact ⟨rfl, congrArg Prod.snd hstep⟩
    · simp [Turn.made?, Turn.result, hstep] at h
  | register | remove | drain => simp [Turn.made?] at h

/-- what a parent has heard of its children after operations from the first on, and where the children are -/
structure Heard (parentId : String) (ops : List (Op σ γ)) : Prop where
  /-- what was read and what is unread are the moves that were made, in their order -/
  complete : (turns (empty parentId) ops).flatMap Turn.drained ++ ((empty parentId).run ops).reports =
    moves (empty parentId) ops
  /-- a child that was moved is one of these, with the parent's id, its name and its states -/
  told : ∀ t ∈ turns (empty parentId) ops, ∀ name state, t.op = .transition name state → t.result.2 = .done →
    ∃ a, t.children.stateOf name = some a ∧ t.result.1.stateOf name = some state ∧
      t.made? = some ⟨parentId, name, a, state⟩
  /-- and nothing else is -/
  asked : ∀ t ∈ turns (empty parentId) ops, ∀ r, t.made? = some r →
    t.op = .transition r.child r.target ∧ t.result.2 = .done
  /-- when a child is moved -/
  moved : ∀ name state, (((empty parentId).run ops).step (.transition name state)).2 = .done ↔
    ∃ m s, ((empty parentId).run ops).get? name = some m ∧ m.definition.stateNamed state = some s ∧ m.Free s
  /-- a child stands where the last of its moves since its registration has led it, or else where it began -/
  stands : ∀ name before op after s, ops = before ++ op :: after → op.initial? name = some s →
    (∀ o ∈ after, o.initial? name = none ∧ o.removes name = false) →
    ((empty parentId).run ops).stateOf name =
      some ((lastTarget name (moves ((empty parentId).run (before ++ [op])) after)).getD s)
  absent : ∀ name, Vacant name ops → ((empty parentId).run ops).stateOf name = none
  /-- what is refused has changed nothing -/
  refused : ∀ op e, (((empty parentId).run ops).step op).2 = .refused e →
    (((empty parentId).run ops).step op).1 = (empty parentId).run ops
  /-- so it is where moves are carried out in place, whatever the child's hooks, store and observers do -/
  inPlace : ∀ {ω : Type} (intake : Intake σ ω) (w : ω) name state,
    ((empty parentId).run ops).transitionAt intake w name state =
      ((((empty parentId).run ops).step (.transition name state)).1,
        (((empty parentId).run ops).step (.transition name state)).2.reason?)

theorem step_refused {c : Children γ σ} {op : Op σ γ} {e : MachineError} (h : (c.step op).2 = .refused e) :
    (c.step op).1 = c := by
  cases op with
  | register name draft hasStore observers data =>
    cases hd : draft.check with
    | error e' => simp [step, register, hd, Except.map]
    | ok d => simp [step, register, hd, Except.map] at h
  | transition name state =>
    rcases transition_made c name state with ⟨m, s, -, -, -, hstep⟩ | ⟨-, e', hstep⟩
    · rw [hstep] at h
      cases h
    · rw [hstep]
  | remove | drain => cases h

/-- **A parent hears of every move of its children once and in order**, and of nothing else, whatever it does with them;
the last that it has heard of a child tells where the child stands. -/
theorem reports_complete (parentId : String) (ops : List (Op σ γ)) : Heard parentId ops := by
  refine ⟨?_, fun t ht name state hop hdone => ?_, fun t _ r => Turn.made?_asked, fun name state => ?_,
    fun name before op after s hops hs hafter => ?_, fun name => run_vacant rfl, fun op e => step_refused,
    fun intake w name state => transitionAt_eq intake w _ name state⟩
  · rw [run_reports]
    rfl
  · obtain ⟨c, op⟩ := t
    have hparent : c.parentId = parentId := turns_parentId ⟨c, op⟩ ht
    obtain rfl : op = .transition name state := hop
    rw [← hparent]
    exact made_transition hdone
  · rcases transition_made ((empty parentId).run ops) name state with ⟨m, s, hm, hs, hfree, hstep⟩ | ⟨hnot, e, hstep⟩
    · exact ⟨fun _ => ⟨m, s, hm, hs, hfree⟩, fun _ => congrArg Prod.snd hstep⟩
    · exact ⟨fun h => (by rw [hstep] at h; cases h), fun h => absurd h hnot⟩
  · have hremoves : op.removes name = false := by
      cases op with
      | register => rfl
      | transition | remove | drain => cases hs
    have hbegan : ((empty parentId).run (before ++ [op])).stateOf name = some s := by
      rw [run_append]
      exact (stateOf_step _ op name).trans (by simp [hremoves, hs])
    have hrun : (empty parentId).run ops = ((empty parentId).run (before ++ [op])).run after := by
      rw [hops, ← run_append]
      simp
    rw [hrun, run_stateOf hafter, hbegan]
    cases lastTarget name (moves ((empty parentId).run (before ++ [op])) after) <;> rfl

/-- a name is taken again while reports of the last child are unread, and by a draft without states -/
example :
    let draft : Draft String Unit := .ofParts "m" [.states ["a", "b"], .transition "a" ["b"], .initial "a"]
    let ops : List (Op String Unit) := [.register "x" draft false 0 (), .transition "x" "b", .transition "x" "b",
      .register "x" draft false 0 (), .register "x" (.empty "m") false 0 (), .transition "y" "b", .drain,
      .transition "x" "b"]
    let c := (empty "p").run ops
    c.stateOf "x" = some "b" ∧ c.reports = [⟨"p", "x", "a", "b"⟩] ∧
      moves (empty "p") ops = [⟨"p", "x", "a", "b"⟩, ⟨"p", "x", "a", "b"⟩] := by
  cbv

end Foreman.Children

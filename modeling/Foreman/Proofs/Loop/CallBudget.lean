/-
The budget of calls of a work loop.

The budget is held where todos are dispatched, by cutting the list of those that are ready; the calls are counted where
tasks are taken in. Both come to the same, as long as every task ends: what a round of acting dispatches is in flight,
all that is in flight is performed and joined, and each joined task is one call. A todo that the delegator refuses or
skips is never in flight and costs nothing; one that was put back and is dispatched again costs a call again.

Results:
- `dispatch_given`:      what dispatching puts in flight.
- `performAll_counted`:  performing and joining tasks dispatches none.
- `Charged.next`:        one step: the calls are the dispatched tasks, within the budget.
- `calls_within_budget`: every run.
-/
import Foreman.Proofs.Loop.AtMostOnce

namespace Foreman

namespace Loop

/-! ## What is dispatched -/

/-- the todos that are dispatched, of those that were handed to the delegator -/
def given (answers : List (Ident × Except DelegationError Dispatch)) : List Ident :=
  (answers.filter fun a => a.2.toOption.any Dispatch.isDispatched).map Prod.fst

theorem given_append (as bs : List (Ident × Except DelegationError Dispatch)) :
    given (as ++ bs) = given as ++ given bs := by
  simp [given]

theorem answers_snoc (d : Delegator) (T : TodoList) (next : Nat) (instructions : Todo → String) (ts : List Todo)
    (t : Todo) :
    answers d T next instructions (ts ++ [t]) =
      let s := dispatch d T next instructions ts
      answers d T next instructions ts ++
        [(t.id, (s.1.delegate (.minted s.2.2) t (instructions t)).map Prod.snd)] := by
  -- the todos before a todo are the same, whatever comes after it
  have htake : ∀ k, k < ts.length → (ts ++ [t]).take k = ts.take k := by
    intro k hk
    exact List.take_append_of_le_length (by omega)
  refine List.ext_getElem (by simp [answers]) fun k hk _ => ?_
  rcases lt_or_ge k ts.length with hlt | hge
  · simp [answers, htake k hlt, hlt]
  · have hlast : k = ts.length := by
      simp only [answers, List.length_mapIdx, List.length_append, List.length_singleton] at hk
      omega
    subst hlast
    simp [answers]

theorem given_length_le (d : Delegator) (T : TodoList) (next : Nat) (instructions : Todo → String) (ts : List Todo) :
    (given (answers d T next instructions ts)).length ≤ ts.length := by
  calc (given (answers d T next instructions ts)).length
      ≤ (answers d T next instructions ts).length := by
        rw [given, List.length_map]
        exact List.length_filter_le _ _
    _ = ts.length := by simp [answers]

/-- **What dispatching puts in flight**: the todos that are dispatched, each with a task and a number of its own -/
theorem dispatch_given {d : Delegator} (h : d.Sound) (T : TodoList) (next : Nat) (instructions : Todo → String)
    (ts : List Todo) :
    let s := dispatch d T next instructions ts
    s.1.Sound ∧ s.1.inFlight = d.inFlight ++ given (answers d T next instructions ts) ∧
      s.1.next = d.next + (given (answers d T next instructions ts)).length := by
  induction ts using List.reverseRecOn with
  | nil => exact ⟨h, by simp [dispatch, answers, given], by simp [dispatch, answers, given]⟩
  | append_singleton ts t ih =>
    rw [dispatch_snoc, answers_snoc, given_append]
    generalize dispatch d T next instructions ts = s at ih ⊢
    obtain ⟨hsound, hflight, hcount⟩ := ih
    dsimp only
    cases hd : s.1.delegate (.minted s.2.2) t (instructions t) with
    | error e =>
      have hnone : given [(t.id, (Except.error e : Except DelegationError (Delegator × Dispatch)).map Prod.snd)] = [] :=
        rfl
      rw [hnone, List.append_nil]
      exact ⟨hsound, hflight, hcount⟩
    | ok p =>
      obtain ⟨d', a⟩ := p
      have hgiven : given [(t.id, (Except.ok (d', a) : Except DelegationError (Delegator × Dispatch)).map Prod.snd)] =
          if a.isDispatched then [t.id] else [] := by
        cases ha : a.isDispatched <;> simp [given, Except.map, Except.toOption, ha]
      rw [hgiven]
      rcases Delegator.delegate_ok hd with ⟨rfl, hskipped⟩ | ⟨task, hdispatched, -, hnew, hid, hstarted, rfl⟩
      · rw [hskipped, if_neg (by decide), List.append_nil]
        exact ⟨hsound, hflight, hcount⟩
      · rw [hdispatched, if_pos rfl, ← List.append_assoc, ← hflight, List.length_append, ← Nat.add_assoc, ← hcount]
        rw [← hid] at hnew ⊢
        exact ⟨Delegator.dispatched_sound hsound hstarted hnew, rfl, rfl⟩

/-! ## What is joined -/

theorem finish_counted (d : Delegator) (n : Nat) (outcome : Except GuardError Payload) (now : Nat) :
    (d.finish n outcome now).1.next = d.next := by
  unfold Delegator.finish
  cases d.running.lookup n with
  | none => rfl
  | some task =>
    dsimp only
    split_ifs <;> rfl

theorem crash_counted (d : Delegator) (n : Nat) : (d.crash n).1.next = d.next := by
  unfold Delegator.crash
  cases d.running.lookup n <;> rfl

theorem settle_counted (d : Delegator) (endings : Endings) (now : Nat) :
    (settle d endings now).next = d.next := by
  induction endings using List.reverseRecOn with
  | nil => rfl
  | append_singleton endings e ih =>
    rw [settle, List.foldl_append, List.foldl_cons, List.foldl_nil, ← settle, ← ih]
    cases e.2 with
    | some outcome => exact finish_counted ..
    | none => exact crash_counted ..

theorem performAll_counted {ω : Type} (w : World ω) (world : ω) (d : Delegator) :
    (performAll w world d).2.1.next = d.next :=
  settle_counted d _ _

theorem settleTodo_counted (T : TodoList) (d : Delegator) (t : Task) :
    (settleTodo T d t).2.next = d.next := by
  have hmark : ∀ id, (d.mark id).next = d.next := by
    intro id
    unfold Delegator.mark
    split_ifs <;> rfl
  unfold settleTodo
  split
  · exact hmark _
  · split_ifs
    · rfl
    · exact hmark _
  · rfl

end Loop

namespace WorkLoop

theorem foldl_absorb_sound (ts : List Task) {c : WorkContext} {d : Delegator} (h : d.Sound) :
    (ts.foldl absorb (c, d)).2.Sound ∧ (ts.foldl absorb (c, d)).2.inFlight = d.inFlight ∧
      (ts.foldl absorb (c, d)).2.next = d.next := by
  induction ts generalizing c d with
  | nil => exact ⟨h, rfl, rfl⟩
  | cons t ts ih =>
    rw [List.foldl_cons]
    obtain ⟨T₁, -, -, heq⟩ := absorb_settles (c, d) t
    have hd : (absorb (c, d) t).2 = (Loop.settleTodo T₁ d t).2 := congrArg Prod.snd heq
    obtain ⟨hsound, hflight⟩ := Loop.settleTodo_sound T₁ h t
    rw [← hd] at hsound hflight
    have hcount : (absorb (c, d) t).2.next = d.next := by rw [hd, Loop.settleTodo_counted]
    obtain ⟨hsound', hflight', hcount'⟩ := ih (c := (absorb (c, d) t).1) hsound
    exact ⟨hsound', hflight'.trans hflight, hcount'.trans hcount⟩

variable {ω : Type} {w : World ω} {digest : List UInt8 → List UInt8} {s : Settings} {machineId : String}

/-! ## Steps -/

theorem Still.calls {c c' : WorkContext} (h : Still c c') : c'.calls = c.calls := by
  cases h with
  | kept _ hcalls _ => exact hcalls
  | planned h =>
    obtain ⟨todos, next, rfl⟩ := plan_eq h
    rfl

/-- what holds of a run between two steps: nothing is in flight, and the calls are the tasks that were dispatched,
within the budget -/
structure Charged (s : Settings) (r : Run ω) : Prop where
  sound : r.delegator.Sound
  idle : r.delegator.inFlight = []
  calls : r.machine.context.data.calls = r.delegator.next
  within : r.machine.context.data.calls ≤ s.work.maxSubagentCalls

/-- a round of acting: every todo that is dispatched has its task taken in, as one call -/
theorem act_charged (hw : w.Finishes) {r : Run ω} (h : Charged s r) (hs : r.machine.state = .act) :
    (acted w s r).2.Sound ∧ (acted w s r).2.inFlight = [] ∧
      (acted w s r).2.next = r.delegator.next + (Loop.given (answered s r)).length ∧
      (acted w s r).1.calls = r.machine.context.data.calls + (Loop.given (answered s r)).length ∧
      (acted w s r).1.calls ≤ s.work.maxSubagentCalls ∧
      ((harvest w s r).flatten.map Task.todoId).Perm (Loop.given (answered s r)) := by
  have hanswered : answered s r = Loop.answers r.delegator r.machine.context.data.todos
      r.machine.context.data.nextId Todo.description
      (r.machine.context.data.todos.ready.take (s.work.maxSubagentCalls - r.machine.context.data.calls)) := by
    simp [answered, hs]
  obtain ⟨hsound, hflight, hcount⟩ := Loop.dispatch_given h.sound r.machine.context.data.todos
    r.machine.context.data.nextId Todo.description
    (r.machine.context.data.todos.ready.take (s.work.maxSubagentCalls - r.machine.context.data.calls))
  have hle := Loop.given_length_le r.delegator r.machine.context.data.todos r.machine.context.data.nextId
    Todo.description (r.machine.context.data.todos.ready.take (s.work.maxSubagentCalls - r.machine.context.data.calls))
  rw [← hanswered, h.idle, List.nil_append] at hflight
  rw [← hanswered] at hcount hle
  obtain ⟨hsound', hempty, -, hperm, -⟩ := Loop.performAll_sound hw hsound r.world
  have hperm : ((performed w s r).2.2.map Task.todoId).Perm (Loop.given (answered s r)) := hperm.trans (.of_eq hflight)
  obtain ⟨hsound'', hempty', hcount'⟩ := foldl_absorb_sound (performed w s r).2.2
    (c := (dispatch s.work r.machine.context.data r.delegator).1) hsound'
  have hlength : (performed w s r).2.2.length = (Loop.given (answered s r)).length := by
    rw [← hperm.length_eq, List.length_map]
  have hcalls : (acted w s r).1.calls = r.machine.context.data.calls + (Loop.given (answered s r)).length := by
    rw [(acted_gathered w s r).calls, hlength]
  refine ⟨hsound'', hempty'.trans hempty, ?_, hcalls, ?_, ?_⟩
  · calc (acted w s r).2.next
        = (performed w s r).2.1.next := hcount'
      _ = (dispatch s.work r.machine.context.data r.delegator).2.next := Loop.performAll_counted ..
      _ = r.delegator.next + (Loop.given (answered s r)).length := hcount
  · -- the ready todos were cut to what is left of the budget
    have hwithin := h.within
    rw [List.length_take] at hle
    rw [hcalls]
    omega
  · rw [harvest_act hs, List.flatten_singleton]
    exact hperm

variable (digest)

/-- **One step of a work loop** -/
theorem Charged.next (hw : w.Finishes) {r : Run ω} (hr : Ruled machineId r) (h : Charged s r) :
    Charged s (next w digest s r) ∧
      (WorkLoop.next w digest s r).machine.context.data.calls =
        r.machine.context.data.calls + (Loop.given (answered s r)).length ∧
      ((harvest w s r).flatten.map Task.todoId).Perm (Loop.given (answered s r)) := by
  by_cases hs : r.machine.state = .act
  · have hnext := next_act w digest s hr hs
    obtain ⟨hsound, hidle, hcount, hcalls, hwithin, hperm⟩ := act_charged hw h hs
    rw [← hnext.delegator] at hsound hidle hcount
    rw [← hnext.data] at hcalls hwithin
    refine ⟨⟨hsound, hidle, ?_, hwithin⟩, hcalls, hperm⟩
    rw [hcalls, hcount, h.calls]
  · obtain ⟨hd, hstill⟩ := next_still w digest s hr hs
    rw [answered_idle hs, harvest_idle hs]
    refine ⟨⟨hd ▸ h.sound, hd ▸ h.idle, ?_, hstill.calls ▸ h.within⟩, hstill.calls, .refl _⟩
    rw [hstill.calls, hd]
    exact h.calls

/-! ## Runs -/

/-- the todos that were dispatched before a boundary, each as often as it was -/
def sent (w : World ω) (digest : List UInt8 → List UInt8) (s : Settings) (n : Nat) (r : Run ω) : List Ident :=
  (List.range n).flatMap fun k => Loop.given (answered s (boundary w digest s k r))

theorem sent_succ (n : Nat) (r : Run ω) :
    sent w digest s (n + 1) r = sent w digest s n r ++ Loop.given (answered s (boundary w digest s n r)) := by
  simp [sent, List.range_succ]

/-- **The calls of a work loop are the tasks that it dispatches, and stay within the budget.** Take a run with any
settings that are valid, any goal and any todos, in a world that brings every task to an end. On each boundary, and so
at each evaluation, the calls are as many as todos were dispatched so far, and no more than the budget, which may be
nothing. A todo counts as often as it was dispatched, which is as often as a task of it was taken in. -/
theorem calls_within_budget (w : World ω) (hw : w.Finishes) (digest : List UInt8 → List UInt8) (s : Settings)
    (registry : Registry) (id : String) (observers : Nat) (hasStore : Bool) (goal : String) (changes : ChangeSet)
    (todos : List Todo) (nextId : Nat) (world : ω) {r : Run ω}
    (hr : begin s registry id observers hasStore (.start goal changes todos nextId) world = .ok r) (n : Nat) :
    (boundary w digest s n r).machine.context.data.calls = (sent w digest s n r).length ∧
      (boundary w digest s n r).delegator.next = (sent w digest s n r).length ∧
      (boundary w digest s n r).delegator.dispatched = .ofNat (sent w digest s n r).length ∧
      (sent w digest s n r).length ≤ s.work.maxSubagentCalls ∧
      ((harvested w digest s n r).flatten.map Task.todoId).Perm (sent w digest s n r) := by
  obtain ⟨-, rfl⟩ := begin_started hr
  have hruled := started_ruled s registry id observers hasStore (.start goal changes todos nextId) world
  generalize hstart : started s registry id observers hasStore (.start goal changes todos nextId) world = r at hruled
  have hfirst : Charged s r ∧ r.machine.context.data.calls = 0 := by
    rw [← hstart]
    exact ⟨⟨Delegator.empty_sound registry s.concurrencyCap, rfl, rfl, Nat.zero_le _⟩, rfl⟩
  have hcharged : ∀ n, Charged s (boundary w digest s n r) := by
    apply along w digest s hruled (P := fun _ q => Charged s q) hfirst.1
    intro _ q hq hcharged
    exact (hcharged.next digest hw hq).1
  have hcalls : (boundary w digest s n r).machine.context.data.calls = (sent w digest s n r).length ∧
      ((harvested w digest s n r).flatten.map Task.todoId).Perm (sent w digest s n r) := by
    induction n with
    | zero => exact ⟨hfirst.2, .refl _⟩
    | succ n ih =>
      obtain ⟨hcount, hperm⟩ := ih
      obtain ⟨-, hcount', hperm'⟩ := (hcharged n).next digest hw (hruled.boundary w digest s n)
      rw [← boundary_succ w digest s hruled] at hcount'
      rw [sent_succ, harvested_succ]
      constructor
      · rw [hcount', hcount, List.length_append]
      · rw [List.flatten_append, List.map_append]
        exact hperm.append hperm'
  obtain ⟨hcount, hperm⟩ := hcalls
  have hnext : (boundary w digest s n r).delegator.next = (sent w digest s n r).length := by
    rw [← hcount, (hcharged n).calls]
  refine ⟨hcount, hnext, hnext ▸ (hcharged n).sound.counter, ?_, hperm⟩
  rw [← hcount]
  exact (hcharged n).within

/-- with a budget of so many calls -/
def thrifty (calls : Nat) : Settings := { work := { maxSubagentCalls := calls } }

/-- a todo that was put off is dispatched again as a second call, if the budget allows one; without a budget none is -/
theorem calls_within_budget_put_off :
    (∃ r, begin (thrifty 2) .standard "work" 0 false (.start "look" ⟨[]⟩ [lookTodo] 0) 0 = .ok r ∧
        (boundary usedUp (fun x => x) (thrifty 2) 8 r).machine.context.data.calls =
          (sent usedUp (fun x => x) (thrifty 2) 8 r).length ∧
        sent usedUp (fun x => x) (thrifty 2) 8 r = [lookTodo.id, lookTodo.id]) ∧
      (∃ r, begin (thrifty 1) .standard "work" 0 false (.start "look" ⟨[]⟩ [lookTodo] 0) 0 = .ok r ∧
        (sent usedUp (fun x => x) (thrifty 1) 8 r).length ≤ 1 ∧
        sent usedUp (fun x => x) (thrifty 1) 8 r = [lookTodo.id]) ∧
      ∃ r, begin (thrifty 0) .standard "work" 0 false (.start "look" ⟨[]⟩ [lookTodo] 0) 0 = .ok r ∧
        (sent usedUp (fun x => x) (thrifty 0) 8 r).length ≤ 0 := by
  have hvalid : ∀ calls, (thrifty calls).validate = .ok () := by
    intro calls
    have hdefault : Settings.validate {} = .ok () := by decide +kernel
    exact hdefault
  have hbegin := fun calls => begin_ok (hvalid calls) .standard "work" 0 false (.start "look" ⟨[]⟩ [lookTodo] 0) 0
  have hspent := fun calls => calls_within_budget usedUp (World.inTurn_finishes _) (fun x => x) (thrifty calls)
    .standard "work" 0 false "look" ⟨[]⟩ [lookTodo] 0 0 (hbegin calls) 8
  refine ⟨⟨_, hbegin 2, (hspent 2).1, by decide +kernel⟩, ⟨_, hbegin 1, (hspent 1).2.2.2.1, by decide +kernel⟩,
    _, hbegin 0, (hspent 0).2.2.2.1⟩

end WorkLoop

end Foreman

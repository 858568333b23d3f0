/-
What a request does to a machine at work.

A station carries a move out in place: guards, hooks, history, store, observers and parent one after the other, with
every call written down. Each of these steps has one equation here, which says what it changes; all else of the station
it leaves alone. Together they say that the station does what `Machine.moveTo` says a move is (`moveTo_eq`): a move is
refused before anything is changed, or it is made as a whole, whoever fails on the way.

Results:
- `move_commits`:     a move that nothing stands against is made, with all its effects in their order.
- `moves_are_atomic`: a request is refused exactly when the table or a guard is against it, and then nothing happened.
- `Children.transition_station`: a child moves as a machine at work does whose parent it reports to.
-/
import Foreman.Machine.Station
import Foreman.Proofs.Machine.Trail

namespace Foreman

variable {σ γ ω : Type}

def Intake.all (intake : Intake σ ω) (w : ω) (signals : List (Signal σ)) : ω :=
  signals.foldl (fun w s => (intake w s).1) w

namespace Station

variable {intake : Intake σ ω}

/-! ## The steps of a move -/

/-- hooks change the context one after the other, each in its turn, and nothing else -/
theorem runHooks_eq (door : Door) (p : Station σ γ ω) (hooks : List (Hook γ)) :
    p.runHooks door hooks =
      { p with
        machine := p.machine.update (Machine.runHooks hooks)
        calls := p.calls ++ (List.range hooks.length).map (.hook door) } := by
  have hfrom : ∀ n, ∀ p : Station σ γ ω, (hooks.zipIdx n).foldl (runHook door) p =
      { p with
        machine := p.machine.update (Machine.runHooks hooks)
        calls := p.calls ++ (List.range' n hooks.length).map (.hook door) } := by
    induction hooks with
    | nil => intro n p; simp [Machine.update, Machine.runHooks]
    | cons h hooks ih =>
      intro n p
      rw [List.zipIdx_cons, List.foldl_cons, ih]
      simp [runHook, note, Machine.update, Machine.runHooks, List.range'_succ]
  rw [runHooks, hfrom, List.range_eq_range']

/-- signals reach the store and the observers in their order, whether one of them fails or not -/
theorem foldl_send (p : Station σ γ ω) (signals : List (Signal σ)) :
    signals.foldl (send intake) p =
      { p with outside := intake.all p.outside signals, calls := p.calls ++ signals.map .signal } := by
  induction signals generalizing p with
  | nil => simp [Intake.all]
  | cons s signals ih =>
    rw [List.foldl_cons, ih]
    simp [send, note, Intake.all]

/-- the guards that are asked: all up to the first that refuses -/
def asked (c : Context γ) (guards : List (Guarded σ γ)) : List (Guarded σ γ) :=
  guards.take (guards.findIdx (fun g => !g.check c) + 1)

theorem asked_all {c : Context γ} {guards : List (Guarded σ γ)} (h : ∀ g ∈ guards, g.check c = true) :
    asked c guards = guards := by
  have hall : guards.findIdx (fun g => !g.check c) = guards.length :=
    List.findIdx_eq_length.2 fun g hg => by simp [h g hg]
  rw [asked, hall]
  exact List.take_of_length_le (Nat.le_succ _)

variable [StateName σ]

/-- the report that a parent gets of a move -/
def reportOf (p : Station σ γ ω) (m : Move σ) : List ChildReport :=
  p.parent.toList.map fun q => ⟨q.1, q.2, StateName.name m.source, StateName.name m.target⟩

theorem report_eq (p : Station σ γ ω) (m : Move σ) :
    p.report m =
      { p with reports := p.reports ++ p.reportOf m, calls := p.calls ++ (p.reportOf m).map .report } := by
  obtain ⟨machine, outside, parent, reports, calls⟩ := p
  cases parent with
  | none => simp [report, reportOf]
  | some q => simp [report, reportOf, note]

/-- guards are asked in their order up to the first that refuses, which is the reason then -/
theorem consult_eq (p : Station σ γ ω) (s : σ) (guards : List (Guarded σ γ)) :
    p.consult s guards =
      ({ p with calls := p.calls ++ (asked p.machine.context guards).map fun g => .guard g.name },
        (guards.find? fun g => !g.check p.machine.context).map fun g =>
          .guardRefused (StateName.name p.machine.state) (StateName.name s) g.name) := by
  induction guards generalizing p with
  | nil => simp [consult, asked]
  | cons g guards ih =>
    cases hg : g.check p.machine.context with
    | true => simp [consult, hg, ih, asked, List.findIdx_cons, note]
    | false => simp [consult, hg, asked, List.findIdx_cons, note]

variable [DecidableEq σ]

/-! ## A move as a whole -/

/-- the calls that a machine makes in a move from first to last -/
def callsOf (p : Station σ γ ω) (s : σ) : List (Machine.Call σ) :=
  let d := p.machine.definition
  let move : Move σ := ⟨d.id, p.machine.state, s⟩
  (List.range (Definition.hooksFor d.onExit p.machine.state).length).map (.hook .exit) ++
    (List.range (Definition.hooksFor d.onEnter s).length).map (.hook .entry) ++
    ((p.machine.moved s).signals move).map .signal ++ (p.reportOf move).map .report

theorem commit_eq (p : Station σ γ ω) (s : σ) :
    p.commit intake s =
      let move : Move σ := ⟨p.machine.id, p.machine.state, s⟩
      { p with
        machine := p.machine.moved s
        outside := intake.all p.outside ((p.machine.moved s).signals move)
        reports := p.reports ++ p.reportOf move
        calls := p.calls ++ p.callsOf s } := by
  simp only [commit, runHooks_eq, foldl_send, report_eq]
  simp [Machine.moved, Machine.update, callsOf, reportOf, Machine.id, List.append_assoc]

/-- **A station makes a move as it is made by the rules, or refuses it as it is refused by the rules.** -/
theorem moveTo_eq (p : Station σ γ ω) (s : σ) :
    p.moveTo intake s =
      let m := p.machine
      let guards := if m.definition.allows m.state s then asked m.context (m.definition.guardsFor m.state s) else []
      let told : Station σ γ ω := { p with calls := p.calls ++ guards.map fun g => .guard g.name }
      match m.moveTo s with
      | .ok (n, signals) =>
        let move : Move σ := ⟨m.id, m.state, s⟩
        ({ told with
            machine := n
            outside := intake.all p.outside signals
            reports := p.reports ++ p.reportOf move
            calls := told.calls ++ p.callsOf s }, none)
      | .error e => (told, some e) := by
  cases ha : p.machine.definition.allows p.machine.state s with
  | false => simp [moveTo, Machine.moveTo, Machine.refusal?, ha]
  | true =>
    simp only [moveTo, ha, Machine.moveTo, Machine.refusal?, consult_eq]
    cases hf : (p.machine.definition.guardsFor p.machine.state s).find? fun g => !g.check p.machine.context with
    | some g => simp
    | none => simp [commit_eq, callsOf, reportOf]

/-- what is asked of the store and of the observers in a move, and what the parent gets to hear -/
theorem signals_moved (m : Machine σ γ) (s : σ) (move : Move σ) :
    (m.moved s).signals move =
      (if m.hasStore then [.store ⟨m.id, StateName.name s, (m.moved s).context.metadata, m.history.length + 1⟩]
        else []) ++ (List.range m.observers).map fun i => .notify i move := by
  simp [Machine.signals, Machine.snapshot, Machine.moved, Machine.id]

theorem moveTo_made {p : Station σ γ ω} {s : σ} (h : p.machine.Free s) :
    p.moveTo intake s =
      let move : Move σ := ⟨p.machine.id, p.machine.state, s⟩
      let guards := p.machine.definition.guardsFor p.machine.state s
      ({ p with
          machine := p.machine.moved s
          outside := intake.all p.outside ((p.machine.moved s).signals move)
          reports := p.reports ++ p.reportOf move
          calls := p.calls ++ guards.map (fun g => .guard g.name) ++ p.callsOf s }, none) := by
  rw [moveTo_eq]
  simp only [h.allowed, if_true, asked_all h.guards, Machine.moveTo_free h]

/-- **A move that nothing stands against is made with all its effects**, whichever hooks, the store and whichever
observers fail: the exit hooks of the old state and the entry hooks of the new one have changed the context in turn, the
move is the last of the history, the store was asked once to keep the new state, each observer was told once, and a
parent has one report; all of it in this order. -/
theorem move_commits (intake : Intake σ ω) {p : Station σ γ ω} {s : σ} (h : p.machine.Free s) :
    let m := p.machine
    let d := m.definition
    let exits := Definition.hooksFor d.onExit m.state
    let entries := Definition.hooksFor d.onEnter s
    let context := (exits ++ entries).foldl (fun c hook => (hook c).1) m.context
    let entry : Move σ := ⟨d.id, m.state, s⟩
    let snapshot : Snapshot := ⟨d.id, StateName.name s, context.metadata, m.history.length + 1⟩
    let saved := if m.hasStore then [Signal.store snapshot] else []
    let told := (List.range m.observers).map fun i => Signal.notify i entry
    let reported := p.parent.toList.map fun q =>
      (⟨q.1, q.2, StateName.name m.state, StateName.name s⟩ : ChildReport)
    p.moveTo intake s =
      ({ p with
          machine := { m with state := s, context := context, history := m.history ++ [entry] }
          outside := intake.all p.outside (saved ++ told)
          reports := p.reports ++ reported
          calls := p.calls ++ (d.guardsFor m.state s).map (fun g => .guard g.name) ++
            (List.range exits.length).map (.hook .exit) ++ (List.range entries.length).map (.hook .entry) ++
            (saved ++ told).map .signal ++ reported.map .report }, none) := by
  intro m d exits entries context entry snapshot saved told reported
  have hcontext : (p.machine.moved s).context = context := by
    simp [context, exits, entries, d, m, Machine.moved, Machine.runHooks, List.foldl_append]
  have hmoved : p.machine.moved s =
      { m with state := s, context := context, history := m.history ++ [entry] } := by
    rw [← hcontext]
    rfl
  have hsignals : (p.machine.moved s).signals entry = saved ++ told := by
    rw [signals_moved, hcontext]
    rfl
  rw [moveTo_made h]
  simp only [callsOf]
  rw [show (⟨p.machine.id, p.machine.state, s⟩ : Move σ) = entry from rfl,
    show (⟨p.machine.definition.id, p.machine.state, s⟩ : Move σ) = entry from rfl, hsignals, hmoved]
  simp only [← List.append_assoc]
  rfl

/-- everything fails: a hook on the way out, the store, both observers -/
theorem move_commits_failing :
    let tick : Hook Nat := fun c => ({ c with data := c.data + 1 }, some "lost")
    let double : Hook Nat := fun c => ({ c with data := c.data * 2 }, none)
    let d : Definition String Nat := ⟨"m", ["a", "b"], "a", [("a", "b")], [("b", double)],
      [("a", tick), ("a", double)], [⟨"a", "b", "ready", fun c => c.data == 1⟩]⟩
    let p : Station String Nat (List Bool) := .start d true 2 1 [] (some ("parent", "child"))
    let q := p.moveTo (fun w _ => (w ++ [true], true)) "b"
    p.machine.Free "b" ∧ q.2 = none ∧ q.1.machine.context.data = 8 ∧
      q.1.machine.history = [⟨"m", "a", "b"⟩] ∧ q.1.outside.length = 3 ∧
      q.1.reports = [⟨"parent", "child", "a", "b"⟩] := by
  intro tick double d p q
  have hfree : p.machine.Free "b" := ⟨by decide, by decide⟩
  have hq := move_commits (fun w _ => (w ++ [true], true)) hfree
  refine ⟨hfree, ?_⟩
  simp only [q]
  rw [hq]
  exact ⟨rfl, rfl, rfl, rfl, rfl⟩

/-! ## Refusals -/

/-- a move to a state is refused, with what is left behind and the reason: the same station, but for guards that were
asked -/
inductive Refused (p : Station σ γ ω) (s : σ) : Station σ γ ω → MachineError → Prop where
  /-- the table is against it, and no guard is asked -/
  | table (h : (p.machine.state, s) ∉ p.machine.definition.moves) :
      Refused p s p (.illegalMove (StateName.name p.machine.state) (StateName.name s))
  /-- a guard is against it, and all before that one are not -/
  | guard {before after : List (Guarded σ γ)} {g : Guarded σ γ}
      (h : (p.machine.state, s) ∈ p.machine.definition.moves)
      (hguards : p.machine.definition.guardsFor p.machine.state s = before ++ g :: after)
      (hbefore : ∀ b ∈ before, b.check p.machine.context = true) (hg : g.check p.machine.context = false) :
      Refused p s { p with calls := p.calls ++ (before ++ [g]).map fun g => .guard g.name }
        (.guardRefused (StateName.name p.machine.state) (StateName.name s) g.name)

/-- the table or a guard of the definition is against a move to a state -/
def Barred (m : Machine σ γ) (s : σ) : Prop :=
  (m.state, s) ∉ m.definition.moves ∨
    ∃ g ∈ m.definition.guards, g.source = m.state ∧ g.target = s ∧ g.check m.context = false

omit [DecidableEq σ] [StateName σ] in
theorem asked_first {c : Context γ} {before after : List (Guarded σ γ)} {g : Guarded σ γ}
    (hbefore : ∀ b ∈ before, b.check c = true) (hg : g.check c = false) :
    asked c (before ++ g :: after) = before ++ [g] := by
  have hfirst : (before ++ g :: after).findIdx (fun g => !g.check c) = before.length := by
    have hall : before.findIdx (fun g => !g.check c) = before.length :=
      List.findIdx_eq_length.2 fun b hb => by simp [hbefore b hb]
    simp [List.findIdx_append, hall, List.findIdx_cons, hg]
  rw [asked, hfirst, List.take_append]
  simp

omit [StateName σ] in
theorem not_barred_iff {m : Machine σ γ} {s : σ} : ¬Barred m s ↔ m.Free s := by
  have hguards : (¬∃ g ∈ m.definition.guards, g.source = m.state ∧ g.target = s ∧ g.check m.context = false) ↔
      ∀ g ∈ m.definition.guardsFor m.state s, g.check m.context = true := by
    simp [Definition.guardsFor]
  rw [Barred, not_or, not_not, hguards]
  exact ⟨fun ⟨hmoves, hg⟩ => ⟨by simpa [Definition.allows] using hmoves, hg⟩,
    fun hf => ⟨by simpa [Definition.allows] using hf.allowed, hf.guards⟩⟩

theorem moveTo_barred {p : Station σ γ ω} {s : σ} (h : Barred p.machine s) :
    ∃ q e, p.moveTo intake s = (q, some e) ∧ Refused p s q e := by
  by_cases hm : (p.machine.state, s) ∈ p.machine.definition.moves
  · have hguard : ∃ g ∈ p.machine.definition.guardsFor p.machine.state s, g.check p.machine.context = false := by
      obtain ⟨g, hmem, hsource, htarget, hg⟩ := h.resolve_left (not_not_intro hm)
      exact ⟨g, List.mem_filter.2 ⟨hmem, by simp [hsource, htarget]⟩, hg⟩
    have hsome : ((p.machine.definition.guardsFor p.machine.state s).find?
        fun g => !g.check p.machine.context).isSome = true := by
      obtain ⟨g, hmem, hg⟩ := hguard
      exact List.find?_isSome.2 ⟨g, hmem, by simp [hg]⟩
    obtain ⟨g, hfirst⟩ := Option.isSome_iff_exists.1 hsome
    obtain ⟨hg, before, after, hsplit, hbefore⟩ := List.find?_eq_some_iff_append.1 hfirst
    have hg : g.check p.machine.context = false := by simpa using hg
    have hbefore : ∀ b ∈ before, b.check p.machine.context = true := fun b hb => by simpa using hbefore b hb
    refine ⟨_, _, ?_, .guard hm hsplit hbefore hg⟩
    have hallows : p.machine.definition.allows p.machine.state s = true := by simpa [Definition.allows] using hm
    have hasked : asked p.machine.context (p.machine.definition.guardsFor p.machine.state s) = before ++ [g] := by
      rw [hsplit, asked_first hbefore hg]
    simp [moveTo, hallows, consult_eq, hfirst, hasked]
  · refine ⟨_, _, ?_, .table hm⟩
    have hallows : p.machine.definition.allows p.machine.state s = false := by simpa [Definition.allows] using hm
    simp [moveTo, hallows]

theorem moveTo_cases (intake : Intake σ ω) (p : Station σ γ ω) (s : σ) :
    (Barred p.machine s ∧ ∃ q e, p.moveTo intake s = (q, some e) ∧ Refused p s q e) ∨
      (p.machine.Free s ∧ (p.moveTo intake s).2 = none) := by
  by_cases h : Barred p.machine s
  · exact Or.inl ⟨h, moveTo_barred h⟩
  · have hfree := not_barred_iff.1 h
    exact Or.inr ⟨hfree, by rw [moveTo_made hfree]⟩

theorem moveToNamed_some (p : Station σ γ ω) {name : String} {s : σ}
    (h : p.machine.definition.stateNamed name = some s) : p.moveToNamed intake name = p.moveTo intake s := by
  simp [moveToNamed, h]

theorem moveToNamed_none (p : Station σ γ ω) {name : String} (h : p.machine.definition.stateNamed name = none) :
    p.moveToNamed intake name = (p, some (.illegalMove (StateName.name p.machine.state) name)) := by
  simp [moveToNamed, h]

/-- no declared state has the name -/
def Unknown (m : Machine σ γ) (name : String) : Prop := ∀ s ∈ m.definition.states, StateName.name s ≠ name

omit [DecidableEq σ] in
theorem unknown_iff {m : Machine σ γ} {name : String} : Unknown m name ↔ m.definition.stateNamed name = none := by
  simp [Unknown, Definition.stateNamed]

/-- when and how requests for moves are refused -/
structure Atomic (intake : Intake σ ω) (p : Station σ γ ω) : Prop where
  /-- the table or a guard is against every move that is refused, and against no other -/
  barred : ∀ s, (p.moveTo intake s).2 ≠ none ↔ Barred p.machine s
  /-- a move that is refused has left everything as it was, and no more than guards were asked -/
  unchanged : ∀ s e, (p.moveTo intake s).2 = some e → Refused p s (p.moveTo intake s).1 e
  barredNamed : ∀ name, (p.moveToNamed intake name).2 ≠ none ↔
    Unknown p.machine name ∨ ∃ s, p.machine.definition.stateNamed name = some s ∧ Barred p.machine s
  unchangedNamed : ∀ name e, (p.moveToNamed intake name).2 = some e →
    (Unknown p.machine name ∧ (p.moveToNamed intake name).1 = p ∧
        e = .illegalMove (StateName.name p.machine.state) name) ∨
      ∃ s, p.machine.definition.stateNamed name = some s ∧ Refused p s (p.moveToNamed intake name).1 e
  /-- the error tells the table from a guard -/
  told : ∀ s q e, Refused p s q e →
    e.code = if (p.machine.state, s) ∈ p.machine.definition.moves then "GUARD_REJECTED" else "INVALID_TRANSITION"
  /-- no refusal is a fault of the definition, and every fault of a draft is one -/
  blameless : ∀ s q e, Refused p s q e → e.isConfiguration = false
  faults : ∀ (draft : Draft σ γ) e, draft.check = .error e → e.isConfiguration = true

/-- **A request for a move is carried out as a whole or not at all.** -/
theorem moves_are_atomic (intake : Intake σ ω) (p : Station σ γ ω) : Atomic intake p := by
  have hbarred : ∀ s, (p.moveTo intake s).2 ≠ none ↔ Barred p.machine s := by
    intro s
    rcases moveTo_cases intake p s with ⟨hb, q, e, hq, -⟩ | ⟨hf, hq⟩
    · simp [hq, hb]
    · simp [hq, not_barred_iff.2 hf]
  have hunchanged : ∀ s e, (p.moveTo intake s).2 = some e → Refused p s (p.moveTo intake s).1 e := by
    intro s e he
    rcases moveTo_cases intake p s with ⟨-, q, e', hq, hr⟩ | ⟨-, hq⟩
    · rw [hq] at he ⊢
      cases he
      exact hr
    · rw [hq] at he
      cases he
  refine ⟨hbarred, hunchanged, fun name => ?_, fun name e he => ?_, fun s q e hr => ?_, fun s q e hr => ?_,
    fun draft e => Draft.check_error⟩
  · cases hs : p.machine.definition.stateNamed name with
    | none => simp [moveToNamed_none p hs, unknown_iff.2 hs]
    | some s => simp [moveToNamed_some p hs, hbarred, unknown_iff, hs]
  · cases hs : p.machine.definition.stateNamed name with
    | none =>
      rw [moveToNamed_none p hs] at he ⊢
      cases he
      exact Or.inl ⟨unknown_iff.2 hs, rfl, rfl⟩
    | some s =>
      rw [moveToNamed_some p hs] at he ⊢
      exact Or.inr ⟨s, rfl, hunchanged s e he⟩
  · cases hr with
    | table h => rw [if_neg h]; rfl
    | guard h => rw [if_pos h]; rfl
  · cases hr <;> rfl

/-- the second guard refuses: the third is not asked, and no hook has run -/
example :
    let d : Definition String Nat := ⟨"m", ["a", "b"], "a", [("a", "b")], [],
      [("a", fun c => ({ c with data := 9 }, none))],
      [⟨"a", "b", "x", fun _ => true⟩, ⟨"a", "b", "y", fun _ => false⟩, ⟨"a", "b", "z", fun _ => false⟩]⟩
    let p : Station String Nat (List Bool) := .start d true 1 5 [] none
    let q := p.moveTo (fun w _ => (w ++ [true], false)) "b"
    q.2 = some (.guardRefused "a" "b" "y") ∧ q.1.machine.context.data = 5 ∧ q.1.calls.length = 2 ∧ q.1.outside = [] := by
  decide

end Station

/-! ## Children -/

/-- **A child moves as a machine at work does** whose parent is the one that drives it: a move that is made is reported
once, a move that is refused is not. -/
theorem Children.transition_station [DecidableEq σ] [StateName σ] (intake : Intake σ ω) (c : Children γ σ) {name : String}
    {m : Machine σ γ} (hm : c.get? name = some m) (state : String) (w : ω) (calls : List (Machine.Call σ)) :
    let q := (Station.mk m w (some (c.parentId, name)) c.reports calls).moveToNamed intake state
    (c.transition name state).map Prod.fst =
      match q.2 with
      | some e => .error e
      | none => .ok { c with machines := put name q.1.machine c.machines, reports := q.1.reports } := by
  intro q
  have hq : q = (Station.mk m w (some (c.parentId, name)) c.reports calls).moveToNamed intake state := rfl
  cases hs : m.definition.stateNamed state with
  | none =>
    rw [Station.moveToNamed_none _ hs] at hq
    simp [hq, transition, hm, Machine.moveToNamed, hs, Except.map]
  | some s =>
    rw [Station.moveToNamed_some _ hs, Station.moveTo_eq] at hq
    cases hr : m.moveTo s with
    | error e => simp [hq, transition, hm, Machine.moveToNamed, hs, hr, Except.map]
    | ok r =>
      obtain ⟨n, signals⟩ := r
      obtain ⟨-, rfl⟩ := Machine.moveTo_ok hr
      simp [hq, transition, hm, Machine.moveToNamed, hs, hr, Except.map, Station.reportOf, Machine.moved]

end Foreman

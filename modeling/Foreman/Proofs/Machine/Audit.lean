/-
The history of a machine at work, over all its requests.

Requests come in any order, of moves that are made and moves that are refused, and the context may be changed in
between and by any hook. State and history do not depend on the context: a turn leaves both alone, or makes one free move
(`serve_cases`). So what one move keeps (`Sound.moved`) holds after any requests.

Results:
- `serveAll_sound`: the history leads along the table from the initial state to the present one.
- `history_audited`: the history has one entry for each move that was made, its past never changes, and it always fits
  the state.
-/
import Foreman.Proofs.Machine.Station

namespace Foreman.Station

variable {σ γ ω : Type} [DecidableEq σ] [StateName σ] {intake : Intake σ ω}

/-! ## Turns -/

omit [DecidableEq σ] [StateName σ] in
/-- whether a move is asked for -/
def isMove : Request σ γ → Bool
  | .update _ => false
  | _ => true

/-- one request of a run: the station that it meets, and what is asked -/
structure Turn (σ γ ω : Type) where
  station : Station σ γ ω
  request : Request σ γ

namespace Turn

def result (intake : Intake σ ω) (t : Turn σ γ ω) : Station σ γ ω × Option MachineError :=
  t.station.serve intake t.request

/-- the move that is made in a turn: from the state before to the state after -/
def made? (intake : Intake σ ω) (t : Turn σ γ ω) : Option (Move σ) :=
  if isMove t.request ∧ (t.result intake).2 = none then
    some ⟨t.station.machine.id, t.station.machine.state, (t.result intake).1.machine.state⟩
  else none

end Turn

def turns (intake : Intake σ ω) (p : Station σ γ ω) : List (Request σ γ) → List (Turn σ γ ω)
  | [] => []
  | r :: rs => ⟨p, r⟩ :: turns intake (p.serve intake r).1 rs

theorem serveAll_snoc (p : Station σ γ ω) (rs : List (Request σ γ)) (r : Request σ γ) :
    p.serveAll intake (rs ++ [r]) = ((p.serveAll intake rs).serve intake r).1 := by
  simp [serveAll, List.foldl_append]

theorem turns_snoc (p : Station σ γ ω) (rs : List (Request σ γ)) (r : Request σ γ) :
    turns intake p (rs ++ [r]) = turns intake p rs ++ [⟨p.serveAll intake rs, r⟩] := by
  induction rs generalizing p with
  | nil => rfl
  | cons r' rs ih => simp [turns, serveAll, ih]

/-! ## What a turn can do -/

theorem Refused.machine_eq {p q : Station σ γ ω} {s : σ} {e : MachineError} (h : Refused p s q e) :
    q.machine = p.machine := by
  cases h <;> rfl

/-- what a turn can do to a machine: it leaves all but its context alone, or makes a free move -/
inductive Served (intake : Intake σ ω) (t : Turn σ γ ω) : Prop where
  | still (f : Context γ → Context γ) (h : (t.result intake).1.machine = t.station.machine.update f)
      (hmade : t.made? intake = none)
  | made (s : σ) (hfree : t.station.machine.Free s) (h : (t.result intake).1.machine = t.station.machine.moved s)
      (hmade : t.made? intake = some ⟨t.station.machine.id, t.station.machine.state, s⟩)

theorem served_move {t : Turn σ γ ω} {s : σ} (hm : isMove t.request = true)
    (h : t.result intake = t.station.moveTo intake s) : Served intake t := by
  rcases moveTo_cases intake t.station s with ⟨-, q, e, hq, hr⟩ | ⟨hfree, hq⟩
  · refine .still id ?_ ?_
    · rw [h, hq]
      exact hr.machine_eq
    · simp [Turn.made?, h, hq]
  · have hmoved : (t.result intake).1.machine = t.station.machine.moved s := by rw [h, moveTo_made hfree]
    have hanswer : (t.result intake).2 = none := by rw [h, hq]
    refine .made s hfree hmoved ?_
    simp [Turn.made?, hm, hanswer, hmoved, Machine.moved]

/-- **What a turn can do to a machine.** -/
theorem serve_served (intake : Intake σ ω) (t : Turn σ γ ω) : Served intake t := by
  obtain ⟨p, r⟩ := t
  cases r with
  | update f => exact .still f rfl rfl
  | move s => exact served_move rfl rfl
  | moveNamed name =>
    cases hs : p.machine.definition.stateNamed name with
    | some s => exact served_move rfl (moveToNamed_some p hs)
    | none =>
      have hq : Turn.result intake ⟨p, .moveNamed name⟩ = _ := moveToNamed_none p hs
      refine .still id ?_ ?_
      · rw [hq]
        rfl
      · simp [Turn.made?, hq]

/-! ## What turns keep -/

omit [StateName σ] in
/-- the history of a machine fits its definition and its state -/
structure Sound (d : Definition σ γ) (m : Machine σ γ) : Prop where
  definition : m.definition = d
  declared : m.state ∈ d.states
  first : ∀ e ∈ m.history.head?, e.source = d.initial
  linked : m.history.IsChain fun a b => a.target = b.source
  last : (m.history.getLast?.map Move.target).getD d.initial = m.state
  legal : ∀ e ∈ m.history, (e.source, e.target) ∈ d.moves
  own : ∀ e ∈ m.history, e.machineId = d.id

variable {d : Definition σ γ}

omit [StateName σ] [DecidableEq σ] in
theorem start_sound (h : d.initial ∈ d.states) (hasStore : Bool) (observers : Nat) (data : γ) :
    Sound d (.start d hasStore observers data) :=
  ⟨rfl, h, by simp [Machine.start], by simp [Machine.start], rfl, by simp [Machine.start], by simp [Machine.start]⟩

omit [StateName σ] in
/-- **A move that is made keeps the history sound.** -/
theorem Sound.moved {m : Machine σ γ} (h : Sound d m) (hd : ∀ p ∈ d.moves, p.1 ∈ d.states ∧ p.2 ∈ d.states) {s : σ}
    (hfree : m.Free s) : Sound d (m.moved s) := by
  obtain ⟨rfl, hdeclared, hfirst, hlinked, hlast, hlegal, hown⟩ := h
  have hmove : (m.state, s) ∈ m.definition.moves := by simpa [Definition.allows] using hfree.allowed
  have hhistory : (m.moved s).history = m.history ++ [⟨m.id, m.state, s⟩] := rfl
  refine ⟨rfl, (hd _ hmove).2, ?_, ?_, ?_, ?_, ?_⟩
  · intro e he
    rw [hhistory, List.head?_append] at he
    cases hh : m.history.head? with
    | some e' =>
      rw [hh] at he
      exact hfirst e (by simpa [hh] using he)
    | none =>
      have hnil : m.history = [] := List.head?_eq_none_iff.1 hh
      rw [hnil] at hlast he
      simp only [List.head?_nil, Option.none_or, List.head?_cons, Option.mem_def, Option.some.injEq] at he
      rw [← he]
      exact hlast.symm
  · rw [hhistory, List.isChain_append]
    refine ⟨hlinked, List.isChain_singleton _, fun a ha b hb => ?_⟩
    simp only [List.head?_cons, Option.mem_def, Option.some.injEq] at ha hb
    rw [← hb]
    simpa [ha] using hlast
  · simp [hhistory]
    rfl
  · intro e he
    rw [hhistory, List.mem_append, List.mem_singleton] at he
    rcases he with he | rfl
    · exact hlegal e he
    · exact hmove
  · intro e he
    rw [hhistory, List.mem_append, List.mem_singleton] at he
    rcases he with he | rfl
    · exact hown e he
    · rfl

/-- **A turn keeps the history sound**, whatever hooks do to the context. -/
theorem turn_sound {t : Turn σ γ ω} (h : Sound d t.station.machine)
    (hd : ∀ p ∈ d.moves, p.1 ∈ d.states ∧ p.2 ∈ d.states) : Sound d (t.result intake).1.machine := by
  cases serve_served intake t with
  | still f hf _ =>
    rw [hf]
    exact ⟨h.definition, h.declared, h.first, h.linked, h.last, h.legal, h.own⟩
  | made s hfree hs _ =>
    rw [hs]
    exact h.moved hd hfree

variable (intake) in
/-- a turn puts the move that is made in it into the history, and takes nothing from it -/
theorem turn_history (t : Turn σ γ ω) :
    (t.result intake).1.machine.history = t.station.machine.history ++ (t.made? intake).toList := by
  cases serve_served intake t with
  | still f hf hmade =>
    rw [hf, hmade]
    exact (List.append_nil _).symm
  | made s _ hs hmade =>
    rw [hs, hmade]
    rfl

/-! ## Runs -/

variable (intake) in
/-- **The history is the moves that were made**, in their order. -/
theorem serveAll_history (p : Station σ γ ω) (rs : List (Request σ γ)) :
    (p.serveAll intake rs).machine.history =
      p.machine.history ++ (turns intake p rs).filterMap (Turn.made? intake) := by
  induction rs using List.reverseRecOn with
  | nil => simp [serveAll, turns]
  | append_singleton rs r ih =>
    have hturn := turn_history intake ⟨p.serveAll intake rs, r⟩
    rw [serveAll_snoc, turns_snoc, List.filterMap_append, ← List.append_assoc, ← ih]
    rw [List.filterMap_cons, List.filterMap_nil]
    rw [Turn.result] at hturn
    rw [hturn]
    cases Turn.made? intake ⟨p.serveAll intake rs, r⟩ <;> rfl

variable (intake) in
theorem serveAll_sound {p : Station σ γ ω} (h : Sound d p.machine)
    (hd : ∀ p ∈ d.moves, p.1 ∈ d.states ∧ p.2 ∈ d.states) (rs : List (Request σ γ)) :
    Sound d (p.serveAll intake rs).machine := by
  induction rs using List.reverseRecOn with
  | nil => exact h
  | append_singleton rs r ih =>
    rw [serveAll_snoc]
    exact turn_sound (t := ⟨p.serveAll intake rs, r⟩) ih hd

/-- what the history of a machine is after requests from its start -/
structure Audited (intake : Intake σ ω) (d : Definition σ γ) (p : Station σ γ ω) (rs : List (Request σ γ)) : Prop where
  declared : d.isDeclared (p.serveAll intake rs).machine.state = true
  /-- one entry for each move that was made -/
  entries : (p.serveAll intake rs).machine.history = (turns intake p rs).filterMap (Turn.made? intake)
  /-- what is in the history stays there as it is -/
  kept : ∀ more, (p.serveAll intake rs).machine.history <+: (p.serveAll intake (rs ++ more)).machine.history
  first : ∀ e ∈ (p.serveAll intake rs).machine.history.head?, e.source = d.initial
  linked : (p.serveAll intake rs).machine.history.IsChain fun a b => a.target = b.source
  /-- the last entry leads to the present state; without entries that is the initial one -/
  last : ((p.serveAll intake rs).machine.history.getLast?.map Move.target).getD d.initial =
    (p.serveAll intake rs).machine.state
  legal : ∀ e ∈ (p.serveAll intake rs).machine.history, d.allows e.source e.target = true ∧ e.machineId = d.id
  /-- what is seen at one moment fits together -/
  view : let v := (p.serveAll intake rs).machine.view
    v.state = (v.last.map Move.target).getD d.initial ∧
      v.transitionCount = ((turns intake p rs).filterMap (Turn.made? intake)).length ∧
      v.last = ((turns intake p rs).filterMap (Turn.made? intake)).getLast?

/-- **The history of a machine is sound and complete**, whatever is asked of it and whatever its hooks, guards, store
and observers do. -/
theorem history_audited (intake : Intake σ ω) {draft : Draft σ γ} (h : draft.check = .ok d) (hasStore : Bool)
    (observers : Nat) (data : γ) (w : ω) (parent : Option (String × String)) (rs : List (Request σ γ)) :
    Audited intake d (.start d hasStore observers data w parent) rs := by
  obtain ⟨hinitial, hd⟩ := Draft.check_declared h
  generalize hp : Station.start d hasStore observers data w parent = p
  have hstart : Sound d p.machine ∧ p.machine.history = [] := by
    rw [← hp]
    exact ⟨start_sound hinitial hasStore observers data, rfl⟩
  have hsound := serveAll_sound intake hstart.1 hd rs
  have hentries := serveAll_history intake p rs
  rw [hstart.2, List.nil_append] at hentries
  refine ⟨by simpa [Definition.isDeclared] using hsound.declared, hentries, fun more => ?_, hsound.first,
    hsound.linked, hsound.last, fun e he => ⟨by simpa [Definition.allows] using hsound.legal e he, hsound.own e he⟩,
    hsound.last.symm, ?_, ?_⟩
  · have hmore : p.serveAll intake (rs ++ more) = (p.serveAll intake rs).serveAll intake more := by
      simp [serveAll, List.foldl_append]
    rw [hmore, serveAll_history intake (p.serveAll intake rs)]
    exact List.prefix_append _ _
  · rw [← hentries]
    rfl
  · rw [← hentries]
    rfl

/-- a hook that wrecks the data, a request out of turn and an unknown name: two entries, one after the other -/
theorem history_audited_wrecked :
    let wreck : Hook Nat := fun _ => (⟨99, []⟩, some "wrecked")
    let draft : Draft String Nat := .ofParts "m" [.states ["a", "b"], .transition "a" ["b"], .fromAny "a", .initial "a",
      .onExit "a" wreck]
    let d : Definition String Nat := ⟨"m", ["a", "b"], "a", [("a", "b"), ("b", "a")], [], [("a", wreck)], []⟩
    let rs : List (Request String Nat) := [.moveNamed "b", .move "b", .update fun c => c, .moveNamed "c", .move "a"]
    let intake : Intake String Unit := fun w _ => (w, true)
    let p := Station.start d true 1 0 () none
    draft.check = .ok d ∧ Audited intake d p rs ∧
      (p.serveAll intake rs).machine.history = [⟨"m", "a", "b"⟩, ⟨"m", "b", "a"⟩] ∧
      (p.serveAll intake rs).machine.context.data = 99 := by
  intro wreck draft d rs intake p
  have hcheck : draft.check = .ok d := by cbv
  exact ⟨hcheck, history_audited intake hcheck true 1 0 () none rs, by decide, by decide⟩

end Foreman.Station

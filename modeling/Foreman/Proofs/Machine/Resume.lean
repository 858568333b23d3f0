/-
Restoring a machine, and how it goes on.

Restoring has five ways to end (`Restored`): without a store, with a store that fails, without a snapshot, with a snapshot
of a state that is not declared, and with a machine that has taken over the state and the metadata of its snapshot. Only
the last one changes anything, and nothing but these two.

The snapshot of the last move is in the store, and has the metadata as all hooks have left it. It has the new state by its
name, which leads back to the state where names are distinct. So another machine of the definition is restored to the very
state and metadata. Two machines that are alike in these are refused the same moves, as long as no guard looks at the
data; and they stay alike, as long as the data tells no hook what to make of the metadata (`alike_answers`).

Results:
- `restore_restored`:   all that restoring can do.
- `alike_serve`:        machines that are alike answer a request for a move alike, and are alike afterwards.
- `restore_round_trip`: a machine is restored to where another one has stopped, or left as it was.
-/
import Mathlib.Data.List.Find
import Foreman.Proofs.Machine.Restart

namespace Foreman

variable {σ γ : Type}

/-! ## Machines that are alike -/

/-- two machines of one definition that differ in no more than data, history and surroundings -/
structure Machine.Alike (m n : Machine σ γ) : Prop where
  definition : m.definition = n.definition
  state : m.state = n.state
  metadata : m.context.metadata = n.context.metadata

/-- no guard looks at the data of a machine -/
def Definition.GuardsBlind (d : Definition σ γ) : Prop :=
  ∀ g ∈ d.guards, ∀ c c' : Context γ, c.metadata = c'.metadata → g.check c = g.check c'

/-- what hooks make of the metadata does not hang on the data -/
def Definition.HooksBlind (d : Definition σ γ) : Prop :=
  ∀ h ∈ d.onExit ++ d.onEnter, ∀ c c' : Context γ, c.metadata = c'.metadata → (h.2 c).1.metadata = (h.2 c').1.metadata

theorem Machine.runHooks_metadata {hooks : List (Hook γ)}
    (h : ∀ hook ∈ hooks, ∀ c c' : Context γ, c.metadata = c'.metadata → (hook c).1.metadata = (hook c').1.metadata)
    {c c' : Context γ} (hc : c.metadata = c'.metadata) :
    (runHooks hooks c).metadata = (runHooks hooks c').metadata := by
  induction hooks generalizing c c' with
  | nil => exact hc
  | cons hook hooks ih =>
    have hfirst := h hook List.mem_cons_self c c' hc
    exact ih (fun k hk => h k (List.mem_cons_of_mem _ hk)) hfirst

variable [DecidableEq σ]

theorem Definition.mem_hooksFor {hooks : List (σ × Hook γ)} {s : σ} {hook : Hook γ} (h : hook ∈ hooksFor hooks s) :
    (s, hook) ∈ hooks := by
  obtain ⟨⟨a, b⟩, hmem, rfl⟩ := List.mem_map.1 h
  obtain ⟨hmem, ha⟩ := List.mem_filter.1 hmem
  simp only [decide_eq_true_eq] at ha
  exact ha ▸ hmem

theorem Machine.Alike.moved {m n : Machine σ γ} (h : m.Alike n) (hb : m.definition.HooksBlind) (s : σ) :
    (m.moved s).Alike (n.moved s) := by
  refine ⟨h.definition, rfl, ?_⟩
  simp only [Machine.moved, ← h.definition, ← h.state]
  have hexit : ∀ hook ∈ Definition.hooksFor m.definition.onExit m.state, ∀ c c' : Context γ, c.metadata = c'.metadata →
      (hook c).1.metadata = (hook c').1.metadata :=
    fun hook hk => hb (m.state, hook) (List.mem_append_left _ (Definition.mem_hooksFor hk))
  have henter : ∀ hook ∈ Definition.hooksFor m.definition.onEnter s, ∀ c c' : Context γ, c.metadata = c'.metadata →
      (hook c).1.metadata = (hook c').1.metadata :=
    fun hook hk => hb (s, hook) (List.mem_append_right _ (Definition.mem_hooksFor hk))
  exact runHooks_metadata henter (runHooks_metadata hexit h.metadata)

variable [StateName σ]

/-- **Machines that are alike are refused the same moves for the same reasons**, if no guard looks at the data. -/
theorem Machine.Alike.refusal? {m n : Machine σ γ} (h : m.Alike n) (hb : m.definition.GuardsBlind) (s : σ) :
    m.refusal? s = n.refusal? s := by
  have hcheck : ∀ g ∈ m.definition.guardsFor m.state s, g.check m.context = g.check n.context :=
    fun g hg => hb g (List.mem_of_mem_filter hg) _ _ h.metadata
  have hfirst : (m.definition.guardsFor m.state s).find? (fun g => !g.check m.context) =
      (m.definition.guardsFor m.state s).find? fun g => !g.check n.context :=
    List.find?_congr fun g hg => by rw [hcheck g hg]
  rw [h.definition, h.state] at hfirst
  simp only [Machine.refusal?, h.definition, h.state, hfirst]

namespace Station

variable {ω ω' : Type} {intake : Intake σ ω} {intake' : Intake σ ω'}

theorem moveTo_answer (intake : Intake σ ω) (p : Station σ γ ω) (s : σ) :
    (p.moveTo intake s).2 = p.machine.refusal? s ∧
      (p.moveTo intake s).1.machine = if p.machine.refusal? s = none then p.machine.moved s else p.machine := by
  rw [moveTo_eq]
  cases h : p.machine.refusal? s <;> simp [Machine.moveTo, h]

/-- **Machines that are alike answer a request for a move alike**, and are alike afterwards. -/
theorem alike_serve (intake : Intake σ ω) (intake' : Intake σ ω') {p : Station σ γ ω} {q : Station σ γ ω'}
    (h : p.machine.Alike q.machine) (hb : p.machine.definition.GuardsBlind) {r : Request σ γ} (hr : isMove r = true) :
    (p.serve intake r).2 = (q.serve intake' r).2 ∧
      (p.machine.definition.HooksBlind → (p.serve intake r).1.machine.Alike (q.serve intake' r).1.machine) := by
  have hmove : ∀ s, (p.moveTo intake s).2 = (q.moveTo intake' s).2 ∧
      (p.machine.definition.HooksBlind → (p.moveTo intake s).1.machine.Alike (q.moveTo intake' s).1.machine) := by
    intro s
    obtain ⟨hpa, hpm⟩ := moveTo_answer intake p s
    obtain ⟨hqa, hqm⟩ := moveTo_answer intake' q s
    have hsame := h.refusal? hb s
    refine ⟨by rw [hpa, hqa, hsame], fun hooks => ?_⟩
    rw [hpm, hqm, ← hsame]
    split_ifs
    · exact h.moved hooks s
    · exact h
  cases r with
  | update f => cases hr
  | move s => exact hmove s
  | moveNamed name =>
    simp only [serve]
    cases hs : p.machine.definition.stateNamed name with
    | some s =>
      rw [moveToNamed_some p hs, moveToNamed_some q (h.definition ▸ hs)]
      exact hmove s
    | none =>
      rw [moveToNamed_none p hs, moveToNamed_none q (h.definition ▸ hs), h.state]
      exact ⟨rfl, fun _ => h⟩

/-- the answers to requests one after the other: the reason for each that is refused -/
def answers (intake : Intake σ ω) (p : Station σ γ ω) (rs : List (Request σ γ)) : List (Option MachineError) :=
  (turns intake p rs).map fun t => (t.result intake).2

theorem serve_definition (intake : Intake σ ω) (p : Station σ γ ω) (r : Request σ γ) :
    (p.serve intake r).1.machine.definition = p.machine.definition := by
  have hmachine : (Turn.result intake ⟨p, r⟩).1.machine.definition = p.machine.definition := by
    cases serve_served intake ⟨p, r⟩ with
    | still f h => rw [h]; rfl
    | made s _ h => rw [h]; rfl
  exact hmachine

/-- **Machines that are alike answer all requests for moves alike**, if neither guards nor hooks hang on the data. -/
theorem alike_answers {p : Station σ γ ω} {q : Station σ γ ω'} (h : p.machine.Alike q.machine)
    (hb : p.machine.definition.GuardsBlind) (hooks : p.machine.definition.HooksBlind) {rs : List (Request σ γ)}
    (hrs : ∀ r ∈ rs, isMove r = true) : answers intake p rs = answers intake' q rs := by
  induction rs generalizing p q with
  | nil => rfl
  | cons r rs ih =>
    obtain ⟨hanswer, hafter⟩ := alike_serve intake intake' h hb (hrs r List.mem_cons_self)
    have hdef := serve_definition intake p r
    have hrest := ih (hafter hooks) (hdef ▸ hb) (hdef ▸ hooks) fun k hk => hrs k (List.mem_cons_of_mem _ hk)
    simp only [answers, turns, List.map_cons, Turn.result, List.cons.injEq] at hrest ⊢
    exact ⟨hanswer, hrest⟩

/-! ## All that restoring can do -/

/-- how restoring ends -/
inductive Restored (q : Station σ γ (Surroundings σ)) : Station σ γ (Surroundings σ) × Except String Bool → Prop
  | bare (hstore : q.outside.store = none) : Restored q (q, .ok false)
  | failed {st : SnapshotStore} {text : String} (hstore : q.outside.store = some st) (h : st.fault = some text) :
      Restored q (q, .error text)
  | unsaved {st : SnapshotStore} (hstore : q.outside.store = some st) (hworks : st.fault = none)
      (h : st.snapshots.lookup q.machine.id = none) : Restored q (q, .ok false)
  | undeclared {st : SnapshotStore} {s : Snapshot} (hstore : q.outside.store = some st) (hworks : st.fault = none)
      (hs : st.snapshots.lookup q.machine.id = some s) (h : Unknown q.machine s.state) : Restored q (q, .ok false)
  | resumed {st : SnapshotStore} {s : Snapshot} {a : σ} (hstore : q.outside.store = some st)
      (hworks : st.fault = none) (hs : st.snapshots.lookup q.machine.id = some s)
      (h : q.machine.definition.stateNamed s.state = some a) :
      Restored q
        ({ q with machine :=
            { q.machine with state := a, context := ⟨q.machine.context.data, s.metadata⟩ } }, .ok true)

/-- **All that restoring can do.** -/
theorem restore_restored (q : Station σ γ (Surroundings σ)) : Restored q q.restore := by
  cases hstore : q.outside.store with
  | none => simpa [restore, Machine.restore, hstore] using Restored.bare hstore
  | some st =>
    cases hfault : st.fault with
    | some text => simpa [restore, Machine.restore, hstore, SnapshotStore.get, hfault] using Restored.failed hstore hfault
    | none =>
      cases hs : st.snapshots.lookup q.machine.id with
      | none =>
        simpa [restore, Machine.restore, hstore, SnapshotStore.get, hfault, hs] using Restored.unsaved hstore hfault hs
      | some s =>
        cases ha : q.machine.definition.stateNamed s.state with
        | none =>
          simpa [restore, Machine.restore, hstore, SnapshotStore.get, hfault, hs, Machine.resume?, ha] using
            Restored.undeclared hstore hfault hs (unknown_iff.2 ha)
        | some a =>
          simpa [restore, Machine.restore, hstore, SnapshotStore.get, hfault, hs, Machine.resume?, ha] using
            Restored.resumed hstore hfault hs ha

theorem restore_untouched {q : Station σ γ (Surroundings σ)} (h : q.restore.2 ≠ .ok true) : q.restore.1 = q := by
  have hr := restore_restored q
  generalize q.restore = r at h hr
  cases hr with
  | resumed => exact absurd rfl h
  | _ => rfl

/-! ## There and back -/

variable {d : Definition σ γ} {p q : Station σ γ (Surroundings σ)}

/-- **After a move its snapshot is in the store.** -/
theorem Backed.stored_moved (h : Backed d p) {r : Request σ γ} (hmove : isMove r = true)
    (hok : (p.serve Surroundings.intake r).2 = none) :
    (p.next (.request r)).stored? = some (p.next (.request r)).machine.snapshot := by
  have hmade : p.made [r] = 1 := by simp [made, turns, Turn.made?, hmove, Turn.result, hok]
  cases (h.requested r).1 with
  | made s _ hmachine hstored => rw [hstored, hmachine]
  | still f hmachine =>
    have hlength := serveAll_length p [r]
    rw [hmade, show p.serveAll Surroundings.intake [r] = p.next (.request r) from rfl, hmachine] at hlength
    simp [Machine.update] at hlength

/-- a machine takes over from another one of its definition -/
structure TakesOver (p q : Station σ γ (Surroundings σ)) : Prop where
  /-- it is restored to the state and the metadata; nothing else is changed, no hook runs and no observer is told -/
  restored : q.restore =
    ({ q with machine :=
        { q.machine with
          state := p.machine.state
          context := ⟨q.machine.context.data, p.machine.context.metadata⟩ } }, .ok true)
  /-- then it is refused what the other one would be refused, if no guard looks at the data -/
  accepts : p.machine.definition.GuardsBlind → ∀ r, isMove r = true →
    (q.restore.1.serve Surroundings.intake r).2 = (p.serve Surroundings.intake r).2
  /-- and so move after move, if no hook heeds the data either -/
  onwards : p.machine.definition.GuardsBlind → p.machine.definition.HooksBlind → ∀ rs, (∀ r ∈ rs, isMove r = true) →
    answers Surroundings.intake q.restore.1 rs = answers Surroundings.intake p rs

/-- a machine whose snapshot is in the store is taken over from by any machine of its definition on that store -/
theorem takesOver_of_stored (hd : Distinct d) (hp : Backed d p) (hstored : p.stored? = some p.machine.snapshot)
    (hq : q.machine.definition = d) (hstore : q.outside.store = p.outside.store) : TakesOver p q := by
  obtain ⟨st, hst, hfault⟩ := hp.works
  have hid : q.machine.id = p.machine.id := by rw [Machine.id, hq, Machine.id, hp.definition]
  have hlookup : st.snapshots.lookup q.machine.id = some p.machine.snapshot := by
    rw [hid, ← stored?_eq hst hfault, hstored]
  have hnamed : q.machine.definition.stateNamed (StateName.name p.machine.state) = some p.machine.state := by
    rw [hq, stateNamed_declared hd hp.declared]
  have hrestored : q.restore =
      ({ q with machine :=
          { q.machine with
            state := p.machine.state
            context := ⟨q.machine.context.data, p.machine.context.metadata⟩ } }, .ok true) := by
    simp [restore, Machine.restore, hstore, hst, SnapshotStore.get, hfault, hlookup, Machine.resume?, Machine.snapshot,
      hnamed]
  have halike : p.machine.Alike q.restore.1.machine := by
    rw [hrestored]
    exact ⟨hp.definition.trans hq.symm, rfl, rfl⟩
  exact ⟨hrestored, fun hb r hr => ((alike_serve Surroundings.intake Surroundings.intake halike hb hr).1).symm,
    fun hb hooks rs hrs => (alike_answers halike hb hooks hrs).symm⟩

/-- **A machine is restored to where another one has stopped.** Whatever has happened on a store that works, once a move
is made any machine of the definition can take over from the one that has made it; and restoring that does not succeed
leaves a machine as it was. -/
theorem restore_round_trip :
    (∀ q : Station σ γ (Surroundings σ), Restored q q.restore ∧ (q.restore.2 ≠ .ok true → q.restore.1 = q)) ∧
      ∀ {draft : Draft σ γ} {d : Definition σ γ}, draft.check = .ok d →
        (∀ a ∈ d.states, ∀ b ∈ d.states, StateName.name a = StateName.name b → a = b) →
        ∀ {w : Surroundings σ} {st : SnapshotStore}, w.store = some st → st.fault = none →
        ∀ (observers : Nat) (data : γ) (parent : Option (String × String)) (es : List (Event σ γ)) (r : Request σ γ),
        let before := live (.start d true observers data w parent) es
        isMove r = true → (before.serve Surroundings.intake r).2 = none →
        ∀ q : Station σ γ (Surroundings σ), q.machine.definition = d →
          q.outside.store = (before.next (.request r)).outside.store → TakesOver (before.next (.request r)) q := by
  refine ⟨fun q => ⟨restore_restored q, restore_untouched⟩, ?_⟩
  intro draft d hcheck hnames w st hw hst observers data parent es r before hmove hok q hq hstore
  obtain ⟨hinitial, hmoves⟩ := Draft.check_declared hcheck
  have hd : Distinct d := ⟨hinitial, hmoves, hnames⟩
  have hstart : Backed d (.start d true observers data w parent) :=
    ⟨rfl, rfl, ⟨st, hw, hst⟩, hinitial, fun hmoved => absurd rfl hmoved⟩
  have hbefore : Backed d before := hstart.live hd es
  exact takesOver_of_stored hd (hbefore.next hd (.request r)) (hbefore.stored_moved hmove hok) hq hstore

/-- metadata comes from a hook and from outside, and a guard looks at it; another machine, with data of its own, takes
over and is let through by the guard -/
theorem restore_round_trip_guarded :
    let mark : Hook Nat := fun c => (c.setMeta "seen" (.int c.data), some "lost")
    let ready : Guarded String Nat := ⟨"b", "c", "ready", fun c => (c.getMeta? "seen").isSome⟩
    let draft : Draft String Nat := .ofParts "m" [.guard ready, .onEnter "b" mark, .transition "b" ["c"],
      .transition "a" ["b"], .initial "a", .states ["a", "b", "c"]]
    let d : Definition String Nat :=
      ⟨"m", ["a", "b", "c"], "a", [("b", "c"), ("a", "b")], [("b", mark)], [], [ready]⟩
    let w : Surroundings String := ⟨some (.empty none), [.recorder true], []⟩
    let before := live (.start d true 1 5 w none) [.request (.update fun c => c.setMeta "goal" (.str "look"))]
    let p := before.next (.request (.move "b"))
    let q : Station String Nat (Surroundings String) := .start d true 0 7 ⟨p.outside.store, [], []⟩ none
    draft.check = .ok d ∧ d.GuardsBlind ∧ TakesOver p q ∧ q.restore.1.machine.state = "b" ∧
      q.restore.1.machine.context.data = 7 ∧
      q.restore.1.machine.context.metadata.map Prod.fst = p.machine.context.metadata.map Prod.fst ∧
      (q.restore.1.serve Surroundings.intake (.moveNamed "c")).2 = none := by
  intro mark ready draft d w before p q
  have hcheck : draft.check = .ok d := by rfl
  have hblind : d.GuardsBlind := by
    intro g hg c c' hc
    obtain rfl : g = ready := List.mem_singleton.1 hg
    simp only [ready, Context.getMeta?, hc]
  have hover : TakesOver p q :=
    restore_round_trip.2 hcheck (by decide) rfl rfl 1 5 none [.request (.update fun c => c.setMeta "goal" (.str "look"))]
      (.move "b") rfl (by decide) q rfl rfl
  exact ⟨hcheck, hblind, hover, by decide, by decide, by decide, by decide⟩

end Station

end Foreman

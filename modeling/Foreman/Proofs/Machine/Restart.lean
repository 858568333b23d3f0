/-
Machines that follow one another on a store.

A machine may go at any moment; another one of its definition is started in its place, with the same store and observers,
and may be restored from what the last one has left. What is in the store is then written by machines one after the other,
each of which counts its own moves: a snapshot has the state, the metadata and the count of the machine that has sent it
(`Backed.kept`), and of these restoring brings back the first two. So a restored machine goes on from the state where the
last one stood, but its count begins anew, and the count in the store goes back by its first move.

Results:
- `turn_outside`: what is outside takes in the signals of a move that is made, and nothing else.
- `Backed.requested`: what a request leaves of a machine and in its store.
- `Backed.next`:  once a machine has made a move, its state and count are in the store.
- `counts_alone`: the count in the store is that of the last machine by itself, and when it goes back.
- `counts_not_added`: the counts of two machines are not added up.
-/
import Foreman.Proofs.Machine.Audit

namespace Foreman

variable {σ γ : Type}

/-! ## What a store keeps -/

theorem SnapshotStore.lookup_put (key : String) (s : Snapshot) (snapshots : List (String × Snapshot)) :
    (put key s snapshots).lookup key = some s := by
  induction snapshots with
  | nil => simp [put]
  | cons p snapshots ih =>
    obtain ⟨k, t⟩ := p
    by_cases h : k = key
    · simp [put, h]
    · rw [put, if_neg h, List.lookup_cons, beq_false_of_ne (Ne.symm h), ih]

theorem SnapshotStore.get_keep {st : SnapshotStore} (h : st.fault = none) (key : String) (s : Snapshot) :
    (st.keep key s).get key = .ok (some s) ∧ (st.keep key s).fault = none := by
  simp [keep, get, h, lookup_put]

theorem Surroundings.notify_store (w : Surroundings σ) (i : Nat) (m : Move σ) :
    (w.receive (.notify i m)).store = w.store := by
  simp only [receive]
  split <;> rfl

theorem Surroundings.all_notify_store (w : Surroundings σ) (m : Move σ) (places : List Nat) :
    (Surroundings.intake.all w (places.map fun i => .notify i m)).store = w.store := by
  induction places generalizing w with
  | nil => rfl
  | cons i places ih => exact (ih (w.receive (.notify i m))).trans (w.notify_store i m)

variable [StateName σ]

theorem Surroundings.all_signals_store (w : Surroundings σ) {m : Machine σ γ} (h : m.hasStore = true) (move : Move σ) :
    (Surroundings.intake.all w (m.signals move)).store = w.store.map fun st => st.keep m.id m.snapshot := by
  have hsplit : Surroundings.intake.all w (m.signals move) =
      Surroundings.intake.all (w.receive (.store m.snapshot))
        ((List.range m.observers).map fun i => .notify i move) := by
    simp [Machine.signals, h, Intake.all, intake]
  rw [hsplit, all_notify_store]
  rfl

namespace Station

variable [DecidableEq σ]

/-- **What is outside takes in the signals of a move that is made, and nothing else.** -/
theorem turn_outside {ω : Type} (intake : Intake σ ω) (t : Turn σ γ ω) :
    (t.result intake).1.outside =
      intake.all t.station.outside ((t.made? intake).toList.flatMap (t.result intake).1.machine.signals) := by
  have hmove : ∀ s, isMove t.request = true → t.result intake = t.station.moveTo intake s →
      (t.result intake).1.outside =
        intake.all t.station.outside ((t.made? intake).toList.flatMap (t.result intake).1.machine.signals) := by
    intro s hm h
    rcases moveTo_cases intake t.station s with ⟨-, q, e, hq, hr⟩ | ⟨hfree, hq⟩
    · have houtside : q.outside = t.station.outside := by cases hr <;> rfl
      simp [Turn.made?, h, hq, houtside, Intake.all]
    · have hmade : t.station.moveTo intake s = _ := moveTo_made hfree
      simp [Turn.made?, hm, h, hmade, Machine.moved]
  obtain ⟨p, r⟩ := t
  cases r with
  | update f => rfl
  | move s => exact hmove s rfl rfl
  | moveNamed name =>
    cases hs : p.machine.definition.stateNamed name with
    | some s => exact hmove s rfl (moveToNamed_some p hs)
    | none =>
      have hq : Turn.result intake ⟨p, .moveNamed name⟩ = _ := moveToNamed_none p hs
      simp [Turn.made?, hq, Intake.all]

/-! ## Machines one after the other -/

omit [StateName σ] [DecidableEq σ] in
/-- the machine gone, and another one of its definition started in its place -/
def restart {ω : Type} (p : Station σ γ ω) (data : γ) : Station σ γ ω :=
  { p with machine := .start p.machine.definition p.machine.hasStore p.machine.observers data }

def restore (p : Station σ γ (Surroundings σ)) : Station σ γ (Surroundings σ) × Except String Bool :=
  ({ p with machine := (p.machine.restore p.outside.store).1 }, (p.machine.restore p.outside.store).2)

variable (σ γ) in
/-- what happens to machines that follow one another -/
inductive Event where
  | request (r : Request σ γ)
  | restart (data : γ)
  | restore

def next (p : Station σ γ (Surroundings σ)) : Event σ γ → Station σ γ (Surroundings σ)
  | .request r => (p.serve Surroundings.intake r).1
  | .restart data => p.restart data
  | .restore => p.restore.1

def live (p : Station σ γ (Surroundings σ)) (es : List (Event σ γ)) : Station σ γ (Surroundings σ) := es.foldl next p

omit [StateName σ] [DecidableEq σ] in
/-- the snapshot in the store under the id of the machine -/
def stored? (p : Station σ γ (Surroundings σ)) : Option Snapshot :=
  p.outside.store.bind fun st =>
    match st.get p.machine.id with
    | .ok s => s
    | .error _ => none

omit [StateName σ] [DecidableEq σ] in
/-- the count in the store, 0 if nothing is there -/
def persisted (p : Station σ γ (Surroundings σ)) : Nat := (p.stored?.map Snapshot.transitionCount).getD 0

/-- how many moves requests make -/
def made (p : Station σ γ (Surroundings σ)) (rs : List (Request σ γ)) : Nat :=
  ((turns Surroundings.intake p rs).filterMap (Turn.made? Surroundings.intake)).length

omit [DecidableEq σ] in
/-- what a definition names is declared, and no two of its states have one name -/
structure Distinct (d : Definition σ γ) : Prop where
  initial : d.initial ∈ d.states
  moves : ∀ m ∈ d.moves, m.1 ∈ d.states ∧ m.2 ∈ d.states
  names : ∀ a ∈ d.states, ∀ b ∈ d.states, StateName.name a = StateName.name b → a = b

/-- a machine with a store that works: once it has made a move, its state and its count are there -/
structure Backed (d : Definition σ γ) (p : Station σ γ (Surroundings σ)) : Prop where
  definition : p.machine.definition = d
  hasStore : p.machine.hasStore = true
  works : ∃ st, p.outside.store = some st ∧ st.fault = none
  declared : p.machine.state ∈ d.states
  kept : p.machine.history ≠ [] → ∃ s, p.stored? = some s ∧ s.state = StateName.name p.machine.state ∧
    s.transitionCount = p.machine.history.length

variable {d : Definition σ γ} {p : Station σ γ (Surroundings σ)}

/-! ## What each event keeps -/

/-- what a request leaves behind: all as it was but for the context, or a free move with its snapshot in the store -/
inductive Requested (p : Station σ γ (Surroundings σ)) (r : Request σ γ) : Prop where
  | still (f : Context γ → Context γ) (hmachine : (p.next (.request r)).machine = p.machine.update f)
      (hstored : (p.next (.request r)).stored? = p.stored?)
  | made (s : σ) (hfree : p.machine.Free s) (hmachine : (p.next (.request r)).machine = p.machine.moved s)
      (hstored : (p.next (.request r)).stored? = some (p.machine.moved s).snapshot) (hmade : p.made [r] = 1)

omit [StateName σ] [DecidableEq σ] in
theorem stored?_eq {st : SnapshotStore} (hst : p.outside.store = some st) (h : st.fault = none) :
    p.stored? = st.snapshots.lookup p.machine.id := by
  simp [stored?, hst, SnapshotStore.get, h]

/-- **What a request leaves behind**, with a store that still works. -/
theorem Backed.requested (h : Backed d p) (r : Request σ γ) :
    Requested p r ∧ ∃ st, (p.next (.request r)).outside.store = some st ∧ st.fault = none := by
  obtain ⟨st, hst, hfault⟩ := h.works
  have houtside : (p.next (.request r)).outside = _ := turn_outside Surroundings.intake ⟨p, r⟩
  cases serve_served Surroundings.intake ⟨p, r⟩ with
  | still f hf hmade =>
    rw [hmade] at houtside
    have hstore : (p.next (.request r)).outside.store = some st := (congrArg Surroundings.store houtside).trans hst
    refine ⟨.still f hf ?_, st, hstore, hfault⟩
    rw [stored?_eq hstore hfault, stored?_eq hst hfault]
    exact congrArg (fun m => st.snapshots.lookup m.id) hf
  | made s hfree hs hmade =>
    have hmachine : (p.next (.request r)).machine = p.machine.moved s := hs
    have hstore : (p.next (.request r)).outside.store = some (st.keep p.machine.id (p.machine.moved s).snapshot) := by
      have hkeep := Surroundings.all_signals_store p.outside (m := p.machine.moved s) h.hasStore
        ⟨p.machine.id, p.machine.state, s⟩
      rw [hst] at hkeep
      rw [houtside, hmade, hs, Option.toList_some, List.flatMap_singleton]
      exact hkeep
    obtain ⟨hget, hworks⟩ := SnapshotStore.get_keep hfault p.machine.id (p.machine.moved s).snapshot
    refine ⟨.made s hfree hs ?_ (by simp [made, turns, hmade]), _, hstore, hworks⟩
    have hid : (p.next (.request r)).machine.id = p.machine.id := by rw [hmachine]; rfl
    simp [stored?, hstore, hid, hget]

theorem Backed.request (h : Backed d p) (hd : Distinct d) (r : Request σ γ) : Backed d (p.next (.request r)) := by
  obtain ⟨hrequested, hworks⟩ := h.requested r
  cases hrequested with
  | still f hmachine hstored =>
    refine ⟨?_, ?_, hworks, ?_, ?_⟩ <;> rw [hmachine]
    · exact h.definition
    · exact h.hasStore
    · exact h.declared
    · rw [hstored]
      exact h.kept
  | made s hfree hmachine hstored _ =>
    have hmove : (p.machine.state, s) ∈ d.moves := by
      rw [← h.definition]
      simpa [Definition.allows] using hfree.allowed
    refine ⟨?_, ?_, hworks, ?_, ?_⟩ <;> rw [hmachine]
    · exact h.definition
    · exact h.hasStore
    · exact (hd.moves _ hmove).2
    · exact fun _ => ⟨_, hstored, rfl, rfl⟩

omit [DecidableEq σ] in
/-- where names are distinct, a declared state is the one of its name -/
theorem stateNamed_declared (hd : Distinct d) {s : σ} (hs : s ∈ d.states) : d.stateNamed (StateName.name s) = some s := by
  have hsome : (d.stateNamed (StateName.name s)).isSome = true := List.find?_isSome.2 ⟨s, hs, by simp⟩
  obtain ⟨b, hb⟩ := Option.isSome_iff_exists.1 hsome
  have hname : StateName.name b = StateName.name s := by simpa using List.find?_some hb
  rw [hb, hd.names b (List.mem_of_find?_eq_some hb) s hs hname]

/-- what restoring does where the store works: a machine takes the state and the metadata of its snapshot, if a state of
that name is declared -/
theorem Backed.restore_eq (h : Backed d p) :
    p.restore =
      match p.stored?.bind p.machine.resume? with
      | some m => ({ p with machine := m }, .ok true)
      | none => (p, .ok false) := by
  obtain ⟨st, hst, hfault⟩ := h.works
  rw [stored?_eq hst hfault]
  simp only [restore, Machine.restore, hst, SnapshotStore.get, hfault]
  cases st.snapshots.lookup p.machine.id with
  | none => rfl
  | some s => cases hs : p.machine.resume? s <;> simp [hs]

omit [DecidableEq σ] in
theorem Backed.restart (h : Backed d p) (hd : Distinct d) (data : γ) : Backed d (p.restart data) := by
  refine ⟨h.definition, h.hasStore, h.works, ?_, fun hmoved => absurd rfl hmoved⟩
  rw [Station.restart, h.definition]
  exact hd.initial

theorem Backed.restored (h : Backed d p) (hd : Distinct d) : Backed d p.restore.1 := by
  rw [h.restore_eq]
  cases hm : p.stored?.bind p.machine.resume? with
  | none => exact h
  | some m =>
    obtain ⟨s, hs, hresume⟩ := Option.bind_eq_some_iff.1 hm
    obtain ⟨a, ha, rfl⟩ := Option.map_eq_some_iff.1 hresume
    rw [h.definition] at ha
    refine ⟨h.definition, h.hasStore, h.works, List.mem_of_find?_eq_some ha, fun hmoved => ?_⟩
    obtain ⟨s', hs', hstate, hcount⟩ := h.kept hmoved
    obtain rfl : s = s' := Option.some.inj (hs.symm.trans hs')
    rw [hstate, stateNamed_declared hd h.declared] at ha
    exact ⟨s, hs', (Option.some.inj ha) ▸ hstate, hcount⟩

/-- **Once a machine has made a move, its state and count are in the store**, whatever happens. -/
theorem Backed.next (h : Backed d p) (hd : Distinct d) (e : Event σ γ) : Backed d (p.next e) := by
  cases e with
  | request r => exact h.request hd r
  | restart data => exact h.restart hd data
  | restore => exact h.restored hd

theorem Backed.live (h : Backed d p) (hd : Distinct d) (es : List (Event σ γ)) : Backed d (p.live es) := by
  induction es generalizing p with
  | nil => exact h
  | cons e es ih => exact ih (h.next hd e)

theorem serveAll_live (p : Station σ γ (Surroundings σ)) (rs : List (Request σ γ)) :
    p.serveAll Surroundings.intake rs = p.live (rs.map .request) := by
  simp only [serveAll, Station.live, List.foldl_map]
  rfl

/-! ## Counts -/

omit [DecidableEq σ] in
theorem Backed.persisted_eq (h : Backed d p) (hmoved : p.machine.history ≠ []) :
    p.persisted = p.machine.history.length := by
  obtain ⟨s, hs, -, hcount⟩ := h.kept hmoved
  rw [persisted, hs]
  exact hcount

theorem serveAll_length (p : Station σ γ (Surroundings σ)) (rs : List (Request σ γ)) :
    (p.serveAll Surroundings.intake rs).machine.history.length = p.machine.history.length + p.made rs := by
  rw [serveAll_history, List.length_append, made]

/-- **Requests leave in the store the count of the machine that they were made to**, once it has moved. -/
theorem Backed.persisted_served (h : Backed d p) (hd : Distinct d) {rs : List (Request σ γ)} (hmade : p.made rs ≠ 0) :
    (p.serveAll Surroundings.intake rs).persisted = p.machine.history.length + p.made rs := by
  have hafter : Backed d (p.serveAll Surroundings.intake rs) := by
    rw [serveAll_live]
    exact h.live hd _
  rw [hafter.persisted_eq, serveAll_length]
  rw [← List.length_pos_iff_ne_nil, serveAll_length]
  omega

theorem Backed.restored_keeps (h : Backed d p) :
    p.restore.1.machine.history = p.machine.history ∧ p.restore.1.stored? = p.stored? := by
  rw [h.restore_eq]
  cases hm : p.stored?.bind p.machine.resume? with
  | none => exact ⟨rfl, rfl⟩
  | some m =>
    obtain ⟨s, -, hresume⟩ := Option.bind_eq_some_iff.1 hm
    obtain ⟨a, -, rfl⟩ := Option.map_eq_some_iff.1 hresume
    exact ⟨rfl, rfl⟩

/-- **The count in the store goes back by the first move of a machine only**, and then to one. -/
theorem Backed.back (h : Backed d p) (e : Event σ γ) (hback : (p.next e).persisted < p.persisted) :
    p.machine.history = [] ∧ (p.next e).persisted = 1 ∧ ∃ r, e = .request r ∧ p.made [r] = 1 := by
  cases e with
  | restart data => exact absurd hback (Nat.lt_irrefl _)
  | restore => exact absurd hback (by simp [Station.next, persisted, h.restored_keeps.2])
  | request r =>
    obtain ⟨hrequested, -⟩ := h.requested r
    cases hrequested with
    | still f _ hstored =>
      rw [persisted, hstored] at hback
      exact absurd hback (Nat.lt_irrefl _)
    | made s _ _ hstored hmade =>
      have hafter : (p.next (.request r)).persisted = p.machine.history.length + 1 := by
        rw [persisted, hstored]
        simp [Machine.snapshot, Machine.moved]
      have hfresh : p.machine.history = [] := by
        by_contra hmoved
        rw [hafter, h.persisted_eq hmoved] at hback
        omega
      exact ⟨hfresh, by simp [hafter, hfresh], r, rfl, hmade⟩

theorem Backed.resumed (h : Backed d p) (hd : Distinct d) (hmoved : p.machine.history ≠ []) (data : γ) :
    ∃ s, p.stored? = some s ∧
      (p.restart data).restore =
        ({ p with machine :=
            { Machine.start d true p.machine.observers data with
              state := p.machine.state, context := ⟨data, s.metadata⟩ } }, .ok true) := by
  obtain ⟨s, hs, hstate, -⟩ := h.kept hmoved
  refine ⟨s, hs, ?_⟩
  have hnamed := stateNamed_declared hd h.declared
  have hstored : (p.restart data).stored? = some s := hs
  rw [(h.restart hd data).restore_eq, hstored]
  simp [Station.restart, Machine.resume?, Machine.start, h.definition, h.hasStore, hstate, hnamed]

/-- what the store says of the machines that follow one another on it -/
structure CountsAlone (p : Station σ γ (Surroundings σ)) : Prop where
  /-- the count in the store is that of the machine by itself, once it has made a move -/
  own : ∀ rs, p.made rs ≠ 0 →
    (p.serveAll Surroundings.intake rs).persisted = p.machine.history.length + p.made rs
  /-- a machine that is restored in place of one that has moved goes on from its state and from its stored metadata -/
  resumed : ∀ rs data, p.made rs ≠ 0 →
    let one := p.serveAll Surroundings.intake rs
    let two := (one.restart data).restore
    two.2 = .ok true ∧ two.1.machine.state = one.machine.state ∧
      one.stored?.map Snapshot.metadata = some two.1.machine.context.metadata ∧ two.1.persisted = one.persisted
  /-- but counts its moves anew -/
  anew : ∀ rs data more,
    let two := ((p.serveAll Surroundings.intake rs).restart data).restore.1
    two.made more ≠ 0 → (two.serveAll Surroundings.intake more).persisted = two.made more
  /-- so the count goes back by the first move of a machine, to one, and by nothing else -/
  back : ∀ e, (p.next e).persisted < p.persisted →
    p.machine.history = [] ∧ (p.next e).persisted = 1 ∧ ∃ r, e = .request r ∧ p.made [r] = 1

/-- **Each machine counts its own moves alone**: a restored machine goes on from where the last one stood, but what the
store then says is its own count. -/
theorem counts_alone {draft : Draft σ γ} (h : draft.check = .ok d)
    (hnames : ∀ a ∈ d.states, ∀ b ∈ d.states, StateName.name a = StateName.name b → a = b) {w : Surroundings σ}
    {st : SnapshotStore} (hw : w.store = some st) (hst : st.fault = none) (observers : Nat) (data : γ)
    (parent : Option (String × String)) (es : List (Event σ γ)) :
    CountsAlone (live (.start d true observers data w parent) es) := by
  obtain ⟨hinitial, hmoves⟩ := Draft.check_declared h
  have hd : Distinct d := ⟨hinitial, hmoves, hnames⟩
  have hstart : Backed d (.start d true observers data w parent) :=
    ⟨rfl, rfl, ⟨st, hw, hst⟩, hinitial, fun hmoved => absurd rfl hmoved⟩
  have hp := hstart.live hd es
  generalize live (.start d true observers data w parent) es = p at hp
  have hone : ∀ rs, Backed d (p.serveAll Surroundings.intake rs) := by
    intro rs
    rw [serveAll_live]
    exact hp.live hd _
  refine ⟨fun rs => hp.persisted_served hd, fun rs data hmade => ?_, fun rs data more hmade => ?_, hp.back⟩
  · have hmoved : (p.serveAll Surroundings.intake rs).machine.history ≠ [] := by
      rw [← List.length_pos_iff_ne_nil, serveAll_length]
      omega
    obtain ⟨s, hs, htwo⟩ := (hone rs).resumed hd hmoved data
    have hstored := ((hone rs).restart hd data).restored_keeps.2
    refine ⟨congrArg Prod.snd htwo, ?_, ?_, ?_⟩
    · rw [htwo]
    · rw [htwo, hs]
      rfl
    · rw [persisted, hstored]
      rfl
  · have htwo := ((hone rs).restart hd data).restored hd
    have hfresh := ((hone rs).restart hd data).restored_keeps.1
    rw [htwo.persisted_served hd hmade, hfresh]
    exact Nat.zero_add _

/-- two moves, a restart in the second state reached, and one more move -/
theorem counts_alone_resumed :
    let draft : Draft String Nat := .ofParts "m" [.states ["a", "b", "c"], .transition "a" ["b"], .transition "b" ["c"],
      .transition "c" ["a"], .initial "a"]
    let d : Definition String Nat := ⟨"m", ["a", "b", "c"], "a", [("a", "b"), ("b", "c"), ("c", "a")], [], [], []⟩
    let w : Surroundings String := ⟨some (.empty none), [.recorder true], []⟩
    let es : List (Event String Nat) := [.request (.move "b"), .request (.move "c"), .restart 0, .restore]
    let p := live (.start d true 1 0 w none) es
    draft.check = .ok d ∧ CountsAlone p ∧ p.machine.state = "c" ∧ p.persisted = 2 ∧
      (p.next (.request (.move "a"))).persisted = 1 := by
  intro draft d w es p
  have hcheck : draft.check = .ok d := by cbv
  have hw : w.store = some (.empty none) := rfl
  exact ⟨hcheck, counts_alone hcheck (by decide) hw rfl 1 0 none es, by decide, by decide, by decide⟩

/-- **The counts of two machines are not added up**: after two moves, a restart and one move the store says one, which is
less than it said before. -/
theorem counts_not_added :
    let d : Definition String Nat := ⟨"m", ["a", "b", "c"], "a", [("a", "b"), ("b", "c"), ("c", "a")], [], [], []⟩
    let p : Station String Nat (Surroundings String) := .start d true 0 0 ⟨some (.empty none), [], []⟩ none
    let one := p.serveAll Surroundings.intake [.move "b", .move "c"]
    let two := ((one.restart 0).restore).1
    let after := two.serveAll Surroundings.intake [.move "a"]
    p.made [.move "b", .move "c"] = 2 ∧ two.made [.move "a"] = 1 ∧ (one.restart 0).restore.2 = .ok true ∧
      after.persisted ≠ 2 + 1 ∧ after.persisted < one.persisted := by
  decide

end Station

end Foreman

/-
The slots of a guarded resource and the calls that have to do with them.

A slot is asked for by a call that waits for it, runs with it and gives it back before anything else. Phases of calls and
holders of slots are two records of the same; the invariant (`Placed`) is that they agree, and it is kept since slots agree
with whoever comes and goes (`Slots.Agrees`). So no more calls run than there are slots, a call that rests has none, and when
all calls have ended every slot is free again.

Results:
- `run_placed`:        slots and phases agree after any steps.
- `Placed.running_le`: no more calls run than there are slots.
- `Placed.vacant`:     when all calls have ended, all slots are free.
-/
import Foreman.Proofs.Guard.Steps
import Foreman.Proofs.Slots

namespace Foreman.Guard

variable {κ : Type} [DecidableEq κ]

/-- slots and phases agree; there are `n` slots -/
structure Placed (n : Nat) (g : Guard κ) : Prop where
  keys : (g.calls.map Prod.fst).Nodup
  fits : g.slots.Fits n
  once : g.slots.present.Nodup
  /-- a call holds a slot or waits for one exactly while it has asked and not given back -/
  engaged : ∀ j, j ∈ g.slots.present ↔ (g.call? j).any (fun c => c.phase.engaged) = true
  /-- a call that runs, or has just run, holds a slot -/
  inside : ∀ j, (g.call? j).any (fun c => c.phase.inside) = true → j ∈ g.slots.holders

variable {n : Nat} {g g' : Guard κ} {k : κ} {c c' : GuardedCall}

theorem fresh_placed (resource : String) (s : GuardSettings) (classifier : Classifier) (now : Nat) :
    Placed (κ := κ) (max s.bulkhead.capacity 1) (fresh resource s classifier now) :=
  ⟨List.nodup_nil, Slots.empty_fits _, List.nodup_nil, fun j => by simp [fresh, Slots.empty, Slots.present, call?],
    fun j h => by simp [fresh, call?] at h⟩

/-- breaker, limiter and counts have no say in it -/
theorem Placed.congr (h : Placed n g) (hslots : g'.slots = g.slots) (hcalls : g'.calls = g.calls) : Placed n g' := by
  have hcall : ∀ j, g'.call? j = g.call? j := fun j => by rw [call?, call?, hcalls]
  refine ⟨by rw [hcalls]; exact h.keys, by rw [hslots]; exact h.fits, by rw [hslots]; exact h.once,
    fun j => ?_, fun j hj => ?_⟩
  · rw [hslots, hcall]
    exact h.engaged j
  · rw [hslots]
    rw [hcall] at hj
    exact h.inside j hj

theorem Placed.agrees (h : Placed n g) :
    g.slots.Agrees n (fun j => (g.call? j).any fun c => c.phase.engaged)
      fun j => (g.call? j).any fun c => c.phase.inside :=
  ⟨h.fits, h.once, h.engaged, h.inside⟩

theorem placed_of_agrees (hkeys : (g.calls.map Prod.fst).Nodup)
    (h : g.slots.Agrees n (fun j => (g.call? j).any fun c => c.phase.engaged)
      fun j => (g.call? j).any fun c => c.phase.inside) : Placed n g :=
  ⟨hkeys, h.fits, h.once, h.engaged, h.seated⟩

theorem keys_setCall (g : Guard κ) (k : κ) (c : GuardedCall) :
    (g.setCall k c).calls.map Prod.fst = g.calls.map Prod.fst :=
  Keyed.keys_replace g.calls k c

theorem any_setCall (hc : g.call? k = some c) (c' : GuardedCall) (f : GuardedCall → Bool) (j : κ) :
    ((g.setCall k c').call? j).any f = if j = k then f c' else (g.call? j).any f :=
  Keyed.any_replace hc c' f j

theorem Placed.setCall (h : Placed n g) (hc : g.call? k = some c) (hengaged : c'.phase.engaged = c.phase.engaged)
    (hinside : c'.phase.inside = true → k ∈ g.slots.holders) : Placed n (g.setCall k c') := by
  refine placed_of_agrees ((keys_setCall g k c').symm ▸ h.keys)
    (h.agrees.stay (Keyed.any_replace_of_eq hc hengaged) fun j hj => ?_)
  rw [any_setCall hc] at hj
  split_ifs at hj with hjk
  · exact .inr (hjk ▸ hinside hj)
  · exact .inl hj

theorem Placed.arrive (h : Placed n g) (hc : g.call? k = some c) (hout : c.phase.engaged = false)
    (hengaged : c'.phase.engaged = true) (hinside : c'.phase.inside = false) :
    Placed n ({ g with slots := g.slots.arrive k }.setCall k c') := by
  have hany := any_setCall (g := { g with slots := g.slots.arrive k }) hc c'
  refine placed_of_agrees ((keys_setCall g k c').symm ▸ h.keys)
    (h.agrees.arrive (k := k) (by simp [hc, hout]) (fun j => ?_) fun j hj => .inl ?_)
  · rw [hany, hengaged]
    rfl
  · rw [hany, hinside] at hj
    split_ifs at hj with hjk
    exact ⟨hjk, hj⟩

theorem Placed.vacate (h : Placed n g) (hc : g.call? k = some c) (hengaged : c'.phase.engaged = false)
    (hinside : c'.phase.inside = false) : Placed n (g.vacate k c').1 := by
  have hany := any_setCall (g := { g with slots := (g.slots.discard k).1 }) hc c'
  refine placed_of_agrees ((keys_setCall g k c').symm ▸ h.keys)
    (h.agrees.discard (k := k) (fun j => ?_) fun j hj => ?_)
  · exact (hany _ j).trans (by rw [hengaged]; rfl)
  · replace hj := (hany _ j).symm.trans hj
    rw [hinside] at hj
    split_ifs at hj with hjk
    exact ⟨hjk, hj⟩

theorem Placed.dropCall (h : Placed n g) (hc : g.call? k = some c) (hout : c.phase.engaged = false) :
    Placed n (g.dropCall k) := by
  refine placed_of_agrees (h.keys.sublist (List.filter_sublist.map _)) (h.agrees.stay (fun j => ?_) fun j hj => .inl ?_)
  · rw [call?_dropCall]
    split_ifs with hjk
    · rw [hjk, hc, Option.any_some, hout]
      rfl
    · rfl
  · rw [call?_dropCall] at hj
    split_ifs at hj with hjk
    · cases hj
    · exact hj

theorem Placed.enter (h : Placed n g) (hnew : g.call? k = none) (hout : c.phase.engaged = false)
    (hinside : c.phase.inside = false) (b : Breaker) : Placed n (g.enter k c b) :=
  placed_of_agrees (Keyed.keys_concat h.keys hnew c)
    (h.agrees.stay (Keyed.any_concat_of_not hnew hout) fun j hj =>
      .inl ((Keyed.any_concat_of_not hnew hinside j).symm.trans hj))

theorem inside_of_out {phase : CallPhase} (h : phase.engaged = false) : phase.inside = false := by
  cases phase <;> simp [CallPhase.engaged, CallPhase.inside] at h ⊢

/-- **A turn keeps slots and phases in agreement.** -/
theorem Change.placed {t : Turn κ} (h : Placed n t.guard) (ht : Change t g) : Placed n g := by
  cases ht with
  | idle => exact h
  | entered k p b hnew => exact h.enter hnew rfl rfl b
  | paid k p m now l hc =>
    have h' : Placed n { t.guard with limiter := l, debits := t.guard.debits + 1 } := h.congr rfl rfl
    exact h'.setCall hc rfl (fun hi => by cases hi)
  | asked k p m hc => exact h.arrive hc rfl rfl rfl
  | started k p m hc hk =>
    have h' : Placed n { t.guard with invocations := t.guard.invocations + 1 } := h.congr rfl rfl
    exact h'.setCall hc rfl fun _ => hk
  | moved k c c' l r hc _ hengaged hinside =>
    have h' : Placed n { t.guard with limiter := l, retries := r } := h.congr rfl rfl
    exact h'.setCall hc hengaged fun hi => h.inside k (by rw [hc, Option.any_some, ← hinside]; exact hi)
  | vacated k c c' hc hout => exact h.vacate hc hout (inside_of_out hout)
  | ended k c b hc hout => exact (h.dropCall hc hout).congr rfl rfl

theorem run_placed (h : Placed n g) (es : List (Event κ)) : Placed n (g.runFrom es) := by
  induction es using List.reverseRecOn with
  | nil => exact h
  | append_singleton es e ih =>
    rw [runFrom_snoc]
    exact (turn_change ⟨g.runFrom es, e⟩).placed ih

/-! ## What it comes to -/

def running (g : Guard κ) : Nat := g.calls.countP fun p => p.2.phase = .running

/-- **No more calls run than there are slots.** -/
theorem Placed.running_le (h : Placed n g) : g.running ≤ n := by
  have hsub : (g.calls.filter fun p => p.2.phase = .running).map Prod.fst ⊆ g.slots.holders := by
    intro j hj
    obtain ⟨⟨i, c⟩, hp, rfl⟩ := List.mem_map.1 hj
    obtain ⟨hmem, hphase⟩ := List.mem_filter.1 hp
    have hphase : c.phase = .running := by simpa using hphase
    refine h.inside i ?_
    rw [call?, Keyed.lookup_of_mem h.keys hmem]
    simp [hphase, CallPhase.inside]
  have hnodup : ((g.calls.filter fun p => p.2.phase = .running).map Prod.fst).Nodup :=
    h.keys.sublist (List.filter_sublist.map _)
  have hlen := (List.subperm_of_subset hnodup hsub).length_le
  rw [List.length_map, ← List.countP_eq_length_filter] at hlen
  exact hlen.trans h.fits.held

theorem Placed.vacant (h : Placed n g) (hnone : g.calls = []) : g.slots.holders = [] ∧ g.slots.line = [] := by
  have hpresent : g.slots.present = [] := by
    refine List.eq_nil_iff_forall_not_mem.2 fun j hj => ?_
    simpa [call?, hnone] using (h.engaged j).1 hj
  exact List.append_eq_nil_iff.1 hpresent

end Foreman.Guard

/-
What can be seen of the callers of a bulkhead from outside.

While callers are under way, neither the slots nor the count tells how many of them wait: a slot may be given to a caller that
does not know of it yet, and a caller that has its slot, or has given up, is counted until it says so. Where no caller can do
anything more by itself, both tell (`AtRest`), and callers that go on by themselves come to such a point in a few steps each.

Results:
- `comes_to_rest`:    callers that go on by themselves come to rest.
- `Kept.atRest`:      what can be seen where they rest.
- `Kept.refused_out`: a caller that was told that no slot came in time has none and stands in no line, then and later.
- `crowd_settled`:    the whole.
-/
import Foreman.Proofs.Guard.Crowd

namespace Foreman.Bulkhead

def Stage.isQueued : Stage → Bool
  | .queued _ => true
  | _ => false

def Stage.isInside : Stage → Bool
  | .inside => true
  | _ => false

namespace Crowd

variable {κ : Type} [DecidableEq κ] {c c' : Crowd κ} {k : κ} {n : Nat}

/-! ## Coming to rest -/

/-- a step that a caller takes by itself, without waiting for time or for what it runs -/
def Event.isOwn : Event κ → Bool
  | .ask _ | .look _ | .poll _ | .giveUp _ | .uncount _ => true
  | _ => false

/-- how many steps a caller can take by itself before it rests, at most -/
def aheadOf (now : Nat) : Stage → Nat
  | .counted _ => 6
  | .unserved w => if w.deadline.any (· ≤ now) then 3 else 5
  | .queued _ => 4
  | .served | .late _ => 2
  | .leaving _ => 1
  | _ => 0

/-- how many steps all callers can take by themselves before they rest, at most -/
def ahead (c : Crowd κ) : Nat := (c.callers.map fun p => aheadOf c.now p.2).sum

theorem ahead_put {s s' : Stage} (hkeys : (c.callers.map Prod.fst).Nodup) (hc : c.stage? k = some s)
    (hlt : aheadOf c.now s' < aheadOf c.now s) : (c.put k s').ahead < c.ahead := by
  have hsum : (c.put k s').ahead + aheadOf c.now s = c.ahead + aheadOf c.now s' :=
    Keyed.sum_replace hkeys hc (aheadOf c.now) s'
  omega

theorem ahead_poll {w : Wait} (hkeys : (c.callers.map Prod.fst).Nodup) (hc : c.stage? k = some (.queued w))
    (h : c.holds k = true ∨ c.isDue w = true) : (c.step (.poll k)).ahead < c.ahead := by
  simp only [step, hc]
  refine ahead_put hkeys hc ?_
  split_ifs with hholds
  · exact (by decide : (2 : Nat) < 4)
  · have hahead : aheadOf c.now (.unserved w) = if c.isDue w then 3 else 5 := rfl
    rw [hahead, if_pos (h.resolve_left hholds)]
    exact (by decide : (3 : Nat) < 4)

theorem ahead_uncount (hkeys : (c.callers.map Prod.fst).Nodup) (hc : c.stage? k = some .served) :
    (c.step (.uncount k)).ahead < c.ahead := by
  simp only [step, hc]
  exact ahead_put (c := { c with waiting := c.waiting - 1 }) hkeys hc (by decide : (0 : Nat) < 2)

/-- **Callers that do not all rest can go on**, and come closer to rest by it. -/
theorem go_on (hkeys : (c.callers.map Prod.fst).Nodup) (hnot : ¬ c.Quiet) :
    ∃ e : Event κ, e.isOwn = true ∧ (c.step e).ahead < c.ahead := by
  obtain ⟨⟨k, s⟩, hmem, hrests⟩ : ∃ p ∈ c.callers, ¬ c.rests p.1 p.2 = true := by
    simpa [Quiet] using hnot
  have hc : c.stage? k = some s := Keyed.lookup_of_mem hkeys hmem
  cases s with
  | counted started =>
    refine ⟨.ask k, rfl, ?_⟩
    simp only [step, hc]
    refine ahead_put (c := perform { c with arrivals := c.arrivals ++ [k] } (.acquire k)) hkeys hc ?_
    split_ifs
    · exact (by decide : (2 : Nat) < 6)
    · simp only [aheadOf]
      split_ifs <;> omega
  | unserved w =>
    refine ⟨.look k, rfl, ?_⟩
    simp only [step, hc]
    refine ahead_put hkeys hc ?_
    have hahead : aheadOf c.now (.unserved w) = if c.isDue w then 3 else 5 := rfl
    rw [hahead]
    split_ifs
    · exact (by decide : (2 : Nat) < 3)
    · exact (by decide : (4 : Nat) < 5)
  | queued w =>
    -- it does not rest, so it has a slot or its deadline has come
    refine ⟨.poll k, rfl, ahead_poll hkeys hc ?_⟩
    by_contra hnot
    simp only [not_or, Bool.not_eq_true] at hnot
    exact hrests (by simp only [rests, hnot.1, hnot.2, Bool.not_false, Bool.and_true])
  | served => exact ⟨.uncount k, rfl, ahead_uncount hkeys hc⟩
  | late w =>
    refine ⟨.giveUp k, rfl, ?_⟩
    simp only [step, hc]
    exact ahead_put (c := c.perform _) hkeys hc (by decide : (1 : Nat) < 2)
  | leaving waited =>
    refine ⟨.uncount k, rfl, ?_⟩
    simp only [step, hc]
    refine ahead_put (c := { c with waiting := c.waiting - 1 }) hkeys hc ?_
    cases waited <;> exact (by decide : (0 : Nat) < 1)
  | inside | refused | ended | gone => exact absurd rfl hrests

/-- **Callers that go on by themselves come to rest**, in six steps each at most. -/
theorem comes_to_rest (h : Kept n c) :
    ∃ es : List (Event κ), (∀ e ∈ es, e.isOwn = true) ∧ es.length ≤ c.ahead ∧ (c.runFrom es).Quiet := by
  induction hm : c.ahead using Nat.strong_induction_on generalizing c with
  | _ m ih =>
    by_cases hq : c.Quiet
    · exact ⟨[], by simp, Nat.zero_le _, hq⟩
    · obtain ⟨e, hown, hlt⟩ := go_on h.placed.keys hq
      obtain ⟨es, howns, hlength, hrest⟩ := ih _ (hm ▸ hlt) (h.step e) rfl
      refine ⟨e :: es, List.forall_mem_cons.2 ⟨hown, howns⟩, ?_, hrest⟩
      rw [List.length_cons]
      omega

/-! ## At rest -/

/-- what can be seen of callers that rest, with `n` slots -/
structure AtRest (n : Nat) (c : Crowd κ) : Prop where
  /-- slots are taken by the callers that run -/
  holders : ∀ k, k ∈ c.bulkhead.slots.holders ↔ c.stage? k = some .inside
  /-- as many slots are taken as callers run -/
  inFlight : c.bulkhead.slots.inFlight = c.callers.countP fun p => p.2.isInside
  /-- no more are taken than there are -/
  bounded : c.bulkhead.slots.inFlight ≤ n
  /-- as many callers are counted as are queued -/
  waiting : c.waiting = c.callers.countP fun p => p.2.isQueued
  /-- those that are queued stand in line in the order in which they asked -/
  line : c.bulkhead.slots.line = c.arrivals.filter fun k => (c.stage? k).any Stage.isQueued
  /-- no slot is free while someone is queued -/
  taken : 0 < c.waiting → c.bulkhead.slots.inFlight = n

omit [DecidableEq κ] in
/-- those of a list that are in a part of it, in their order -/
theorem eq_filter_of_sublist {l m : List κ} (h : l.Sublist m) (hm : m.Nodup) {p : κ → Bool}
    (hp : ∀ a ∈ m, a ∈ l ↔ p a = true) : l = m.filter p := by
  have hself : l.filter p = l := List.filter_eq_self.2 fun a ha => (hp a (h.subset ha)).1 ha
  have hsub : l.Sublist (m.filter p) := hself ▸ h.filter p
  refine hsub.eq_of_length_le ((List.subperm_of_subset (hm.filter p) fun a ha => ?_).length_le)
  obtain ⟨hmem, hpa⟩ := List.mem_filter.1 ha
  exact (hp a hmem).2 hpa

/-- a caller that rests and has to do with the slots runs, or it is queued without a slot -/
theorem rests_engaged {s : Stage} (hrests : c.rests k s = true) (hs : s.engaged = true) :
    s = .inside ∨ s.isQueued = true ∧ c.holds k = false := by
  cases s with
  | inside => exact Or.inl rfl
  | queued w => exact Or.inr ⟨rfl, by simpa using (Bool.and_eq_true_iff.1 hrests).1⟩
  | counted | unserved | served | late | leaving => cases hrests
  | refused | ended | gone => cases hs

theorem waits_eq_isQueued {s : Stage} (hrests : c.rests k s = true) : s.waits = s.isQueued := by
  cases s <;> first | rfl | cases hrests

section Quiet

variable (h : Kept n c) (hq : c.Quiet)
include h hq

theorem Kept.holders_iff (k : κ) : k ∈ c.bulkhead.slots.holders ↔ c.stage? k = some .inside := by
  constructor
  · intro hk
    obtain ⟨s, hc, hs⟩ := (Option.any_eq_true _ _).1 ((h.placed.agrees.engaged k).1 (List.mem_append_left _ hk))
    rcases rests_engaged (hq _ (Keyed.mem_of_lookup hc)) hs with rfl | ⟨-, hnot⟩
    · exact hc
    · exact absurd hk (by simpa [holds, Slots.holds] using hnot)
  · intro hc
    exact (h.placed.seated_out hc rfl).1

theorem Kept.line_iff (k : κ) : k ∈ c.bulkhead.slots.line ↔ (c.stage? k).any Stage.isQueued = true := by
  constructor
  · intro hk
    obtain ⟨s, hc, hs⟩ := (Option.any_eq_true _ _).1 ((h.placed.agrees.engaged k).1 (List.mem_append_right _ hk))
    rcases rests_engaged (hq _ (Keyed.mem_of_lookup hc)) hs with rfl | ⟨hqueued, -⟩
    · exact absurd hk (h.placed.seated_out hc rfl).2
    · rw [hc]
      exact hqueued
  · intro hk
    obtain ⟨s, hc, hqueued⟩ := (Option.any_eq_true _ _).1 hk
    have hengaged : s.engaged = true := by cases s <;> first | rfl | cases hqueued
    have hpresent := (h.placed.agrees.engaged k).2 (by rw [hc]; exact hengaged)
    refine (List.mem_append.1 hpresent).resolve_left fun hholds => ?_
    rw [h.holders_iff hq, hc] at hholds
    cases hholds
    cases hqueued

/-- **What can be seen of callers that rest.** -/
theorem Kept.atRest : AtRest n c where
  holders := h.holders_iff hq
  inFlight := by
    refine Keyed.length_eq_countP h.placed.keys h.placed.agrees.once.of_append_left fun k => ?_
    rw [h.holders_iff hq]
    constructor
    · exact congrArg (Option.any Stage.isInside)
    · intro hk
      obtain ⟨s, hc, hs⟩ := (Option.any_eq_true _ _).1 hk
      cases s <;> first | exact hc | cases hs
  bounded := h.placed.agrees.fits.held
  waiting := by
    rw [h.counted]
    refine List.countP_congr fun p hp => ?_
    rw [waits_eq_isQueued (hq p hp)]
  line := eq_filter_of_sublist h.ordered.line h.ordered.once fun k _ => h.line_iff hq k
  taken := by
    intro hpos
    obtain ⟨p, hp, hwaits⟩ := List.countP_pos_iff.1 (h.counted ▸ hpos)
    rw [waits_eq_isQueued (hq p hp)] at hwaits
    have hline : p.1 ∈ c.bulkhead.slots.line := by
      rw [h.line_iff hq, stage?, Keyed.lookup_of_mem h.placed.keys hp]
      exact hwaits
    have hbusy := h.ordered.busy (List.ne_nil_of_mem hline)
    obtain ⟨hsize, hheld⟩ := h.placed.agrees.fits
    exact hheld.antisymm (hsize ▸ hbusy)

end Quiet

/-! ## At any time -/

@[simp] theorem put_bulkhead (c : Crowd κ) (k : κ) (s : Stage) : (c.put k s).bulkhead = c.bulkhead := rfl

@[simp] theorem perform_bulkhead (c : Crowd κ) (o : Op κ) : (c.perform o).bulkhead = c.bulkhead.step o := rfl

/-- a step acts on the slots by one of the bulkhead's own steps, or not at all -/
theorem step_bulkhead (c : Crowd κ) (e : Event κ) :
    (c.step e).bulkhead = c.bulkhead ∨ ∃ o, (c.step e).bulkhead = c.bulkhead.step o := by
  cases e with
  | pass ms => exact Or.inl rfl
  | _ =>
    simp only [step]
    split <;> simp only [put_bulkhead, perform_bulkhead]
    all_goals first | exact Or.inl trivial | exact Or.inr ⟨_, rfl⟩

theorem runFrom_bulkhead (c : Crowd κ) (es : List (Event κ)) :
    ∃ ops : List (Op κ), (c.runFrom es).bulkhead = ops.foldl Bulkhead.step c.bulkhead := by
  induction es generalizing c with
  | nil => exact ⟨[], rfl⟩
  | cons e es ih =>
    obtain ⟨ops, hops⟩ := ih (c.step e)
    rcases c.step_bulkhead e with hsame | ⟨o, ho⟩
    · exact ⟨ops, hops.trans (by rw [hsame])⟩
    · exact ⟨o :: ops, hops.trans (by rw [ho, List.foldl_cons])⟩

/-- only a caller whose wait is over is told that no slot came in time -/
theorem refused_of_code {e : GuardError} (h : c.answer? k = some (.error e)) (hcode : e.code = "BULKHEAD_TIMEOUT") :
    ∃ waited, c.stage? k = some (.refused waited) ∧ e = .noSlot c.resource (.ofMillis waited) := by
  obtain ⟨s, hc, hs⟩ := Option.bind_eq_some_iff.1 h
  cases s with
  | refused waited =>
    cases hs
    exact ⟨waited, hc, rfl⟩
  | ended error =>
    cases error with
    | none => cases hs
    | some error =>
      cases hs
      exact absurd (show "CALL_FAILED" = "BULKHEAD_TIMEOUT" from hcode) (by decide)
  | _ => cases hs

/-- **A caller that was told that no slot came in time** has none and stands in no line, then and later. -/
theorem Kept.refused_out (h : Kept n c) {e : GuardError} (hanswer : c.answer? k = some (.error e))
    (hcode : e.code = "BULKHEAD_TIMEOUT") (es : List (Event κ)) :
    (c.runFrom es).answer? k = some (.error e) ∧ k ∉ (c.runFrom es).bulkhead.slots.present := by
  obtain ⟨waited, hc, rfl⟩ := refused_of_code hanswer hcode
  obtain ⟨hstage, hresource⟩ := h.runFrom_done hc rfl es
  refine ⟨?_, (h.runFrom es).placed.agrees.absent (by rw [hstage]; rfl)⟩
  rw [answer?, hstage, hresource]
  rfl

theorem Kept.emptied (h : Kept n c) (hdone : ∀ p ∈ c.callers, p.2.isDone = true) :
    c.bulkhead.slots.inFlight = 0 ∧ c.waiting = 0 := by
  constructor
  · refine List.length_eq_zero_iff.2 (List.eq_nil_iff_forall_not_mem.2 fun k hk => ?_)
    obtain ⟨s, hc, hs⟩ := (Option.any_eq_true _ _).1 ((h.placed.agrees.engaged k).1 (List.mem_append_left _ hk))
    have hapart := (Stage.done_apart (hdone _ (Keyed.mem_of_lookup hc))).2.2
    exact Bool.false_ne_true (hapart.symm.trans hs)
  · refine h.counted.trans (List.countP_eq_zero.2 fun p hp => ?_)
    rw [(Stage.done_apart (hdone p hp)).2.1]
    exact Bool.false_ne_true

/-! ## The whole -/

/-- what holds of the callers of a bulkhead at any time -/
structure Settled (capacity : Nat) (c : Crowd κ) : Prop where
  /-- what was done to the slots was done by steps of the bulkhead -/
  ran : ∃ ops, c.bulkhead = Bulkhead.run capacity ops
  /-- callers that go on by themselves come to rest -/
  calms : ∃ es : List (Event κ), (∀ e ∈ es, e.isOwn = true) ∧ (c.runFrom es).Quiet
  /-- where they rest, slots and count tell how many run and how many are queued -/
  atRest : c.Quiet → AtRest (max capacity 1) c
  /-- one that was told that no slot came in time has none and stands in no line, then and later -/
  refused : ∀ k e, c.answer? k = some (.error e) → e.code = "BULKHEAD_TIMEOUT" → ∀ es,
    (c.runFrom es).answer? k = some (.error e) ∧ k ∉ (c.runFrom es).bulkhead.slots.present
  /-- whoever is given a slot next asked before all that are still in line then -/
  served : ∀ e k, k ∉ c.bulkhead.slots.holders → k ∈ (c.step e).bulkhead.slots.holders →
    ∀ j ∈ (c.step e).bulkhead.slots.line, [k, j].Sublist (c.step e).arrivals
  /-- where all callers are done, no slot is taken and nobody is counted -/
  emptied : (∀ p ∈ c.callers, p.2.isDone = true) → c.bulkhead.slots.inFlight = 0 ∧ c.waiting = 0

/-- **Whatever callers do and whenever**, as many run as have a slot, as many are counted as are queued, slots go round in the
order of arrival, and nothing is left behind. -/
theorem crowd_settled (resource : String) (capacity : Nat) (limit : Option Nat) (es : List (Event κ)) :
    Settled capacity (run resource capacity limit es) := by
  have h := run_kept resource capacity limit es
  obtain ⟨own, hown, -, hrest⟩ := comes_to_rest h
  exact {
    ran := runFrom_bulkhead _ es
    calms := ⟨own, hown, hrest⟩
    atRest := h.atRest
    refused := fun _ _ => h.refused_out
    served := fun e _ => (h.placed.change e).served h.ordered
    emptied := h.emptied }

/-- a slot that comes back too late for the first in line goes to the second -/
example :
    let c : Crowd Nat := run "agent" 1 (some 5) [.come 0, .ask 0, .uncount 0, .come 1, .ask 1, .look 1, .pass 2, .come 2,
      .ask 2, .look 2, .pass 3, .poll 1, .look 1, .finish 0 none, .giveUp 1, .uncount 1, .poll 2, .uncount 2]
    c.answer? 1 = some (.error (.noSlot "agent" (.ofMillis 5))) ∧ c.bulkhead.slots.holders = [2] ∧ c.waiting = 0 := by
  decide +kernel

end Crowd

end Foreman.Bulkhead

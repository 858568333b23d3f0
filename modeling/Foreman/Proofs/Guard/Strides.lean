/-
How far a caller of a bulkhead comes by steps of its own.

`Goes` tells what comes of a few steps of one caller: where it is then, what became of the bulkhead, and that all other
callers are where they were. One step comes to this for each event; chains of steps follow by `Goes.trans`.

Results:
- `goes_in`:          who is given a slot while it waits goes in.
- `goes_expire`:      who waits when its deadline comes is refused.
- `runFrom_stranger`: who has not come is not known.
-/
import Foreman.Proofs.Guard.Crowd

namespace Foreman.Bulkhead.Crowd

variable {κ : Type} [DecidableEq κ] {c c' c'' d : Crowd κ} {k : κ} {s s' : Stage} {b b' : Bulkhead κ} {w : Wait}

/-- a caller has come to a stage, and the bulkhead is what it is then; all else is as before -/
structure Goes (k : κ) (c c' : Crowd κ) (s : Stage) (b : Bulkhead κ) : Prop where
  stage : c'.stage? k = some s
  bulkhead : c'.bulkhead = b
  now : c'.now = c.now
  limit : c'.limit = c.limit
  others : ∀ j, j ≠ k → c'.stage? j = c.stage? j

theorem Goes.trans (h : Goes k c c' s b) (h' : Goes k c' c'' s' b') : Goes k c c'' s' b' :=
  ⟨h'.stage, h'.bulkhead, h'.now.trans h.now, h'.limit.trans h.limit, fun j hj => (h'.others j hj).trans (h.others j hj)⟩

theorem goes_put (hc : c.stage? k = some s) (hcallers : d.callers = c.callers) (hnow : d.now = c.now)
    (hlimit : d.limit = c.limit) (s' : Stage) : Goes k c (d.put k s') s' d.bulkhead := by
  have hstage : ∀ i, d.stage? i = c.stage? i := fun i => by rw [stage?, stage?, hcallers]
  refine ⟨?_, rfl, hnow, hlimit, fun j hj => ?_⟩
  · rw [stage?_put, if_pos rfl, hstage, hc]
    rfl
  · rw [stage?_put, if_neg hj, hstage]

theorem goes_come (hnew : c.stage? k = none) : Goes k c (c.step (.come k)) (.counted c.now) c.bulkhead := by
  simp only [step, hnew]
  exact ⟨(Keyed.lookup_concat hnew _ k).trans (if_pos rfl), rfl, rfl, rfl,
    fun j hj => (Keyed.lookup_concat hnew _ j).trans (if_neg hj)⟩

theorem goes_ask {started : Nat} (hc : c.stage? k = some (.counted started)) :
    Goes k c (c.step (.ask k))
      (if (c.bulkhead.step (.acquire k)).slots.holds k then .served else .unserved ⟨started, c.limit.map (c.now + ·)⟩)
      (c.bulkhead.step (.acquire k)) := by
  simp only [step, hc]
  exact goes_put (d := perform { c with arrivals := c.arrivals ++ [k] } (.acquire k)) hc rfl rfl rfl _

theorem goes_look (hc : c.stage? k = some (.unserved w)) :
    Goes k c (c.step (.look k)) (if c.isDue w then .late w else .queued w) c.bulkhead := by
  simp only [step, hc]
  exact goes_put hc rfl rfl rfl _

theorem goes_poll (hc : c.stage? k = some (.queued w)) :
    Goes k c (c.step (.poll k)) (if c.holds k then .served else .unserved w) c.bulkhead := by
  simp only [step, hc]
  exact goes_put hc rfl rfl rfl _

theorem goes_giveUp (hc : c.stage? k = some (.late w)) :
    Goes k c (c.step (.giveUp k)) (.leaving (some (c.now - w.started)))
      (c.bulkhead.step (if c.holds k then .cancel k else .expire k)) := by
  simp only [step, hc]
  exact goes_put (d := c.perform _) hc rfl rfl rfl _

theorem goes_uncount_served (hc : c.stage? k = some .served) : Goes k c (c.step (.uncount k)) .inside c.bulkhead := by
  simp only [step, hc]
  exact goes_put (d := { c with waiting := c.waiting - 1 }) hc rfl rfl rfl _

theorem goes_uncount_leaving {waited : Option Nat} (hc : c.stage? k = some (.leaving waited)) :
    Goes k c (c.step (.uncount k)) (waited.elim .gone .refused) c.bulkhead := by
  simp only [step, hc]
  exact goes_put (d := { c with waiting := c.waiting - 1 }) hc rfl rfl rfl _

theorem goes_finish (hc : c.stage? k = some .inside) (error : Option CallError) :
    Goes k c (c.step (.finish k error)) (.ended error) (c.bulkhead.step (.release k)) := by
  simp only [step, hc]
  exact goes_put (d := c.perform _) hc rfl rfl rfl _

theorem goes_cancel_queued (hc : c.stage? k = some (.queued w)) :
    Goes k c (c.step (.cancel k)) (.leaving none) (c.bulkhead.step (.cancel k)) := by
  simp only [step, hc]
  exact goes_put (d := c.perform _) hc rfl rfl rfl _

theorem goes_cancel_inside (hc : c.stage? k = some .inside) :
    Goes k c (c.step (.cancel k)) .gone (c.bulkhead.step (.cancel k)) := by
  simp only [step, hc]
  exact goes_put (d := c.perform _) hc rfl rfl rfl _

/-- **Who waits when its deadline comes** is refused. -/
theorem goes_expire (hc : c.stage? k = some (.queued w)) (hholds : c.holds k = false) (hdue : c.isDue w = true) :
    Goes k c (c.runFrom [.poll k, .look k, .giveUp k, .uncount k]) (.refused (c.now - w.started))
      (c.bulkhead.step (.expire k)) := by
  have hpoll := goes_poll hc
  rw [hholds, if_neg Bool.false_ne_true] at hpoll
  have hlook := goes_look hpoll.stage
  rw [isDue, hpoll.now, ← isDue, hdue, if_pos rfl, hpoll.bulkhead] at hlook
  have hlate := hpoll.trans hlook
  have hgiveUp := goes_giveUp hlate.stage
  rw [holds, hlate.bulkhead, ← holds, hholds, if_neg Bool.false_ne_true, hlate.now] at hgiveUp
  have huncount := goes_uncount_leaving hgiveUp.stage
  rw [hgiveUp.bulkhead] at huncount
  exact (hlate.trans hgiveUp).trans huncount

/-- **Who is given a slot while it waits** goes in. -/
theorem goes_in (hc : c.stage? k = some (.queued w)) (hholds : c.holds k = true) :
    Goes k c (c.runFrom [.poll k, .uncount k]) .inside c.bulkhead := by
  have hpoll := goes_poll hc
  rw [hholds, if_pos rfl] at hpoll
  have huncount := goes_uncount_served hpoll.stage
  rw [hpoll.bulkhead] at huncount
  exact hpoll.trans huncount

theorem runFrom_append (c : Crowd κ) (es es' : List (Event κ)) : c.runFrom (es ++ es') = (c.runFrom es).runFrom es' :=
  List.foldl_append

/-! ## Strangers -/

theorem put_stranger (hd : d.stage? k = none) (j : κ) (s : Stage) : (d.put j s).stage? k = none := by
  rw [stage?_put]
  split_ifs with hk
  · rw [← hk, hd]
    rfl
  · exact hd

theorem step_stranger (hc : c.stage? k = none) {e : Event κ} (he : e ≠ .come k) : (c.step e).stage? k = none := by
  cases e with
  | pass ms => exact hc
  | come j =>
    have hkj : k ≠ j := fun hkj => he (hkj ▸ rfl)
    simp only [step]
    split
    · exact hc
    next hj => exact (Keyed.lookup_concat hj _ k).trans ((if_neg hkj).trans hc)
  | _ j =>
    simp only [step]
    split <;> first | exact hc | exact put_stranger hc _ _

theorem runFrom_stranger (hc : c.stage? k = none) {es : List (Event κ)} (hes : .come k ∉ es) :
    (c.runFrom es).stage? k = none := by
  induction es generalizing c with
  | nil => exact hc
  | cons e es ih =>
    obtain ⟨he, hlater⟩ := not_or.1 (List.mem_cons.not.1 hes)
    exact ih (step_stranger hc (Ne.symm he)) hlater

end Foreman.Bulkhead.Crowd

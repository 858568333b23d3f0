/-
A bulkhead on a clock, where callers take all their steps at once.

`Bulkhead.Timed` knows of no caller under way: who asks for a slot has it, waits or is refused, and who waits is refused in
the very moment in which its deadline comes. Its callers are those of a `Crowd` that comes to rest after each thing that
happens. So what it tells of its slots and of those that wait is what the slots and the count of such a crowd tell.

Callers that wait with a deadline are noted with it; `Follows` says that the notes are right and that all callers are where
they may rest. Between two things that happen they do rest (`Rested`).

Results:
- `Follows.expireAll`: those whose deadline has come give up, one after the other.
- `Follows.handOver`:  those that were given a slot go in.
- `timed_follows`:     a bulkhead on a clock tells what a crowd at rest tells.
-/
import Foreman.Proofs.Guard.Rest
import Foreman.Proofs.Guard.Strides

namespace Foreman.Bulkhead

/-! ## What happens to a bulkhead on a clock -/

/-- what happens to a bulkhead on a clock -/
inductive Timed.Op (κ : Type) where
  | acquire (k : κ)
  | release (k : κ)
  | cancel (k : κ)
  | advance (ms : Nat)
deriving DecidableEq, Repr

namespace Timed

variable {κ : Type} [DecidableEq κ]

def act (t : Timed κ) : Op κ → Timed κ
  | .acquire k => t.acquire k
  | .release k => t.perform (.release k)
  | .cancel k => t.perform (.cancel k)
  | .advance ms => t.advanceTo (t.now + ms)

def run (capacity : Nat) (limit : Option Nat) (ops : List (Op κ)) : Timed κ := ops.foldl act (empty capacity limit)

/-- the deadlines of all but one -/
def others (t : Timed κ) (k : κ) : List (κ × Nat) := t.deadlines.filter fun d => d.1 ≠ k

/-- a caller has asked that may wait for a time; an earlier wait of it no longer counts -/
def noted (t : Timed κ) (k : κ) (ms : Nat) : Timed κ :=
  { t.perform (.acquire k) with deadlines := t.others k ++ [(k, t.now + ms)] }

/-- who comes -/
def Op.comer? : Op κ → Option κ
  | .acquire k => some k
  | _ => none

end Timed

/-- it waits in line, it runs, or it is done -/
def Stage.isCalm : Stage → Bool
  | .queued _ | .inside | .refused _ | .ended _ | .gone => true
  | _ => false

namespace Crowd

variable {κ : Type} [DecidableEq κ] {c c' : Crowd κ} {k j : κ} {n : Nat} {s : Stage} {w : Wait}

/-! ## Following the clock -/

/-- a crowd does what a bulkhead on a clock tells: no caller is under way, and deadlines are noted right -/
structure Follows (n : Nat) (t : Timed κ) (c : Crowd κ) : Prop where
  kept : Kept n c
  bulkhead : c.bulkhead = t.bulkhead
  limit : c.limit = t.limit
  now : c.now = t.now
  calm : ∀ k s, c.stage? k = some s → s.isCalm = true
  dues : ∀ k w, c.stage? k = some (.queued w) → w.deadline = t.deadlines.lookup k
  once : (t.deadlines.map Prod.fst).Nodup
  unlimited : t.limit = none → t.deadlines = []

/-- those that wait have no slot -/
def Unseated (c : Crowd κ) : Prop := ∀ k w, c.stage? k = some (.queued w) → c.holds k = false

/-- the crowd rests, and no deadline that is noted has come -/
structure Rested (n : Nat) (t : Timed κ) (c : Crowd κ) : Prop extends Follows n t c where
  quiet : c.Quiet
  ahead : ∀ d ∈ t.deadlines, t.now < d.2

/-- the crowd comes to rest as the bulkhead on the clock says, by steps in which no other caller comes than that one -/
def Attains (n : Nat) (comer : Option κ) (t : Timed κ) (c : Crowd κ) : Prop :=
  ∃ es : List (Event κ), (∀ j, .come j ∈ es → comer = some j) ∧ Rested n t (c.runFrom es)

section Follows

variable {t u : Timed κ} {es : List (Event κ)} {o : Op κ} {comer : Option κ}

theorem Rested.attains (h : Rested n t c) : Attains n comer t c := ⟨[], by simp, h⟩

theorem Attains.after (h : Attains n none t (c.runFrom es)) (hcome : ∀ j, .come j ∈ es → comer = some j) :
    Attains n comer t c := by
  obtain ⟨es', hcome', hrested⟩ := h
  refine ⟨es ++ es', ?_, ?_⟩
  · intro j hj
    rcases List.mem_append.1 hj with hj | hj
    · exact hcome j hj
    · cases hcome' j hj
  · rw [runFrom_append]
    exact hrested

/-- a caller comes to a stage where it may stay, and what is noted keeps up with it -/
theorem Follows.goes (h : Follows n t c) (hgoes : Goes k c (c.runFrom es) s u.bulkhead) (hcalm : s.isCalm = true)
    (hnow : u.now = t.now) (hlimit : u.limit = t.limit) (hdue : ∀ w, s = .queued w → w.deadline = u.deadlines.lookup k)
    (hothers : ∀ j, j ≠ k → u.deadlines.lookup j = t.deadlines.lookup j) (honce : (u.deadlines.map Prod.fst).Nodup)
    (hunlimited : u.limit = none → u.deadlines = []) : Follows n u (c.runFrom es) where
  kept := h.kept.runFrom es
  bulkhead := hgoes.bulkhead
  limit := hgoes.limit.trans (h.limit.trans hlimit.symm)
  now := hgoes.now.trans (h.now.trans hnow.symm)
  calm := by
    intro j r hj
    by_cases hjk : j = k
    · subst hjk
      exact Option.some.inj (hgoes.stage.symm.trans hj) ▸ hcalm
    · exact h.calm j r ((hgoes.others j hjk).symm.trans hj)
  dues := by
    intro j w hj
    by_cases hjk : j = k
    · subst hjk
      exact hdue w (Option.some.inj (hgoes.stage.symm.trans hj))
    · rw [hothers j hjk]
      exact h.dues j w ((hgoes.others j hjk).symm.trans hj)
  once := honce
  unlimited := hunlimited

theorem Follows.performs (h : Follows n t c) (hgoes : Goes k c (c.runFrom es) s (c.bulkhead.step o))
    (hcalm : s.isCalm = true) (hqueued : s.isQueued = false) : Follows n (t.perform o) (c.runFrom es) := by
  rw [h.bulkhead] at hgoes
  refine h.goes (u := t.perform o) hgoes hcalm rfl rfl (fun w hw => ?_) (fun _ _ => rfl) h.once h.unlimited
  rw [hw] at hqueued
  cases hqueued

theorem Follows.not_due (h : Follows n t c) (hahead : ∀ d ∈ t.deadlines, t.now < d.2)
    (hc : c.stage? k = some (.queued w)) : c.isDue w = false := by
  rw [isDue, h.dues k w hc, h.now]
  cases hd : t.deadlines.lookup k with
  | none => rfl
  | some d => simpa using hahead _ (Keyed.mem_of_lookup hd)

theorem Follows.rested (h : Follows n t c) (hunseated : c.Unseated) (hahead : ∀ d ∈ t.deadlines, t.now < d.2) :
    Rested n t c := by
  refine ⟨h, fun p hp => ?_, hahead⟩
  obtain ⟨k, s⟩ := p
  have hc : c.stage? k = some s := Keyed.lookup_of_mem h.kept.placed.keys hp
  have hcalm := h.calm k s hc
  cases s with
  | queued w => simp only [rests, hunseated k w hc, h.not_due hahead hc, Bool.not_false, Bool.and_true]
  | counted | unserved | served | late | leaving => cases hcalm
  | inside | refused | ended | gone => rfl

theorem Rested.unseated (h : Rested n t c) : c.Unseated := by
  intro k w hc
  have hrests := h.quiet _ (Keyed.mem_of_lookup hc)
  simpa using (Bool.and_eq_true_iff.1 hrests).1

/-- who is not in line where callers may stay is not refused -/
theorem Follows.expire_idle (h : Follows n t c) (hc : ∀ w, c.stage? k ≠ some (.queued w)) :
    t.bulkhead.step (.expire k) = t.bulkhead := by
  have hline : k ∉ t.bulkhead.slots.line := by
    intro hmem
    rw [← h.bulkhead] at hmem
    obtain ⟨s, hs, hengaged⟩ :=
      (Option.any_eq_true _ _).1 ((h.kept.placed.agrees.engaged k).1 (List.mem_append_right _ hmem))
    have hcalm := h.calm k s hs
    cases s with
    | queued w => exact hc w hs
    | inside => exact (h.kept.placed.seated_out hs rfl).2 hmem
    | counted | unserved | served | late | leaving => cases hcalm
    | refused | ended | gone => cases hengaged
  simp [Bulkhead.step, Slots.waits, hline]

theorem perform_eq_self (hidle : t.bulkhead.step o = t.bulkhead) : t.perform o = t := by
  rw [Timed.perform, hidle]

/-! ## Deadlines -/

/-- a deadline that comes takes no slot from anyone -/
theorem holders_expire (b : Bulkhead κ) (k : κ) : (b.step (.expire k)).slots.holders = b.slots.holders := by
  simp only [Bulkhead.step]
  split_ifs <;> rfl

theorem advanceTo_eq (t : Timed κ) (time : Nat) :
    t.advanceTo time = { t with
      bulkhead := (t.deadlines.filter fun d => d.2 ≤ time).foldl (fun b d => b.step (.expire d.1)) t.bulkhead
      now := time
      deadlines := t.deadlines.filter fun d => !(d.2 ≤ time) } := by
  have hfold : ∀ (ds : List (κ × Nat)) (t : Timed κ), ds.foldl (fun t d => t.perform (.expire d.1)) t =
      { t with bulkhead := ds.foldl (fun b d => b.step (.expire d.1)) t.bulkhead } := by
    intro ds
    induction ds with
    | nil =>
      intro t
      rfl
    | cons d ds ih =>
      intro t
      exact ih (t.perform (.expire d.1))
  simp only [Timed.advanceTo, hfold]

/-- whoever still waits has waited before, and has no slot; some have given up -/
def Waits (gone : List κ) (c c' : Crowd κ) : Prop :=
  ∀ k w, c'.stage? k = some (.queued w) → c.stage? k = some (.queued w) ∧ c'.holds k = false ∧ k ∉ gone

/-- one whose deadline has come gives up, if it still waits -/
theorem Follows.expire (h : Follows n t c) (hunseated : c.Unseated) {d : κ × Nat} (hd : d ∈ t.deadlines)
    (htime : d.2 ≤ t.now) :
    ∃ es : List (Event κ), (∀ k, .come k ∉ es) ∧ Follows n (t.perform (.expire d.1)) (c.runFrom es) ∧
      Waits [d.1] c (c.runFrom es) := by
  by_cases hqueued : ∃ w, c.stage? d.1 = some (.queued w)
  · obtain ⟨w, hc⟩ := hqueued
    have hdue : c.isDue w = true := by
      rw [isDue, h.dues d.1 w hc, Keyed.lookup_of_mem h.once hd, h.now]
      simpa using htime
    have hgoes := goes_expire hc (hunseated d.1 w hc) hdue
    refine ⟨_, by simp, h.performs hgoes rfl rfl, fun k v hk => ?_⟩
    have hne : k ≠ d.1 := by
      rintro rfl
      cases hgoes.stage.symm.trans hk
    have hbefore := (hgoes.others k hne).symm.trans hk
    have hempty := hunseated k v hbefore
    rw [holds, Slots.holds] at hempty ⊢
    rw [hgoes.bulkhead, holders_expire]
    exact ⟨hbefore, hempty, by simpa using hne⟩
  · have hidle := h.expire_idle fun w hw => hqueued ⟨w, hw⟩
    refine ⟨[], by simp, ?_, fun k w hk => ⟨hk, hunseated k w hk, fun hmem => ?_⟩⟩
    · rw [perform_eq_self hidle]
      exact h
    · exact hqueued ⟨w, List.mem_singleton.1 hmem ▸ hk⟩

/-- **Those whose deadline has come give up**, one after the other. -/
theorem Follows.expireAll (h : Follows n t c) (hunseated : c.Unseated) {ds : List (κ × Nat)}
    (hds : ∀ d ∈ ds, d ∈ t.deadlines ∧ d.2 ≤ t.now) :
    ∃ es : List (Event κ), (∀ k, .come k ∉ es) ∧
      Follows n { t with bulkhead := ds.foldl (fun b d => b.step (.expire d.1)) t.bulkhead } (c.runFrom es) ∧
      Waits (ds.map Prod.fst) c (c.runFrom es) := by
  induction ds generalizing t c with
  | nil => exact ⟨[], by simp, h, fun k w hk => ⟨hk, hunseated k w hk, List.not_mem_nil⟩⟩
  | cons d ds ih =>
    obtain ⟨hd, hlater⟩ := List.forall_mem_cons.1 hds
    obtain ⟨es, hcome, hfollows, hwaits⟩ := h.expire hunseated hd.1 hd.2
    obtain ⟨es', hcome', hfollows', hwaits'⟩ := ih hfollows (fun k w hk => (hwaits k w hk).2.1) hlater
    refine ⟨es ++ es', fun k hk => (List.mem_append.1 hk).elim (hcome k) (hcome' k), ?_, fun k w hk => ?_⟩
    · rw [runFrom_append]
      exact hfollows'
    · rw [runFrom_append] at hk ⊢
      obtain ⟨hmiddle, hempty, hnot'⟩ := hwaits' k w hk
      obtain ⟨hbefore, -, hnot⟩ := hwaits k w hmiddle
      refine ⟨hbefore, hempty, ?_⟩
      rw [List.map_cons, List.mem_cons, not_or]
      exact ⟨by simpa using hnot, hnot'⟩

/-- **Time passes**, and those whose deadline comes by then give up. -/
theorem Follows.advanceTo (h : Follows n t c) (hunseated : c.Unseated) {time : Nat} (hle : t.now ≤ time) :
    Attains n none (t.advanceTo time) c := by
  have hpass : Follows n { t with now := time } (c.step (.pass (time - t.now))) :=
    { h with
      kept := h.kept.step _
      now := by
        show c.now + (time - t.now) = time
        rw [h.now]
        omega }
  have hdue : ∀ d ∈ t.deadlines.filter (fun d => d.2 ≤ time), d ∈ t.deadlines ∧ d.2 ≤ time := by simp
  have hahead : ∀ d ∈ t.deadlines.filter (fun d => !(d.2 ≤ time)), time < d.2 := by simp
  obtain ⟨es, hcome, hfollows, hwaits⟩ := hpass.expireAll hunseated hdue
  refine ⟨.pass (time - t.now) :: es, by simpa using hcome, ?_⟩
  rw [advanceTo_eq]
  refine Follows.rested
    { hfollows with
      dues := fun k w hk => ?_
      once := h.once.sublist (List.filter_sublist.map _)
      unlimited := fun hnone => by simp [h.unlimited hnone] } (fun k w hk => (hwaits k w hk).2.1) hahead
  -- whoever still waits has a deadline that is noted and ahead, or none
  rw [hfollows.dues k w hk, Keyed.lookup_kept h.once]
  show t.deadlines.lookup k = _
  cases hl : t.deadlines.lookup k with
  | none => rfl
  | some d =>
    have hlate : ¬d ≤ time := by
      intro hd
      have hmem : (k, d) ∈ t.deadlines.filter fun d => d.2 ≤ time :=
        List.mem_filter.2 ⟨Keyed.mem_of_lookup hl, by simpa using hd⟩
      exact (hwaits k w hk).2.2 (List.mem_map.2 ⟨_, hmem, rfl⟩)
    simp [Option.filter_some, hlate]

/-- **Those that were given a slot go in.** -/
theorem Follows.handOver (h : Follows n t c) (hahead : ∀ d ∈ t.deadlines, t.now < d.2) :
    Attains n none t c := by
  induction hm : c.ahead using Nat.strong_induction_on generalizing c with
  | _ m ih =>
    by_cases hunseated : c.Unseated
    · exact (h.rested hunseated hahead).attains
    · obtain ⟨k, w, hc, hholds⟩ : ∃ k w, c.stage? k = some (.queued w) ∧ c.holds k = true := by
        simpa [Unseated] using hunseated
      have hgoes := goes_in hc hholds
      have hserved : (c.step (.poll k)).stage? k = some .served := by
        have hpoll := (goes_poll hc).stage
        rwa [hholds, if_pos rfl] at hpoll
      have hless : (c.runFrom [.poll k, .uncount k]).ahead < c.ahead :=
        (ahead_uncount (h.kept.step _).placed.keys hserved).trans (ahead_poll h.kept.placed.keys hc (Or.inl hholds))
      rw [h.bulkhead] at hgoes
      have hfollows := h.goes hgoes rfl rfl rfl (fun _ hw => by cases hw) (fun _ _ => rfl) h.once h.unlimited
      exact (ih _ (hm ▸ hless) hfollows rfl).after (by simp)

/-! ## What happens to a bulkhead on a clock -/

theorem Rested.release (h : Rested n t c) (k : κ) : Attains n none (t.perform (.release k)) c := by
  by_cases hk : k ∈ t.bulkhead.slots.holders
  · have hinside : c.stage? k = some .inside := (h.kept.holders_iff h.quiet k).1 (h.bulkhead ▸ hk)
    have hgoes : Goes k c (c.runFrom [.finish k none]) (.ended none) (c.bulkhead.step (.release k)) :=
      goes_finish hinside none
    exact ((h.toFollows.performs hgoes rfl rfl).handOver h.ahead).after (by simp)
  · have hidle : t.bulkhead.step (.release k) = t.bulkhead := by
      simp [Bulkhead.step, Slots.release, Slots.holds, hk]
    rw [perform_eq_self hidle]
    exact h.attains

theorem Rested.cancel (h : Rested n t c) (k : κ) : Attains n none (t.perform (.cancel k)) c := by
  by_cases hengaged : (c.stage? k).any Stage.engaged = true
  · obtain ⟨s, hc, hs⟩ := (Option.any_eq_true _ _).1 hengaged
    obtain ⟨es, s', hcome, hgoes, hcalm, hqueued⟩ : ∃ (es : List (Event κ)) (s' : Stage),
        (∀ j, .come j ∈ es → none = some j) ∧ Goes k c (c.runFrom es) s' (c.bulkhead.step (.cancel k)) ∧
          s'.isCalm = true ∧ s'.isQueued = false := by
      cases s with
      | inside => exact ⟨[.cancel k], .gone, by simp, goes_cancel_inside hc, rfl, rfl⟩
      | queued w =>
        have hcancel := goes_cancel_queued hc
        have huncount := goes_uncount_leaving hcancel.stage
        rw [hcancel.bulkhead] at huncount
        exact ⟨[.cancel k, .uncount k], .gone, by simp, hcancel.trans huncount, rfl, rfl⟩
      | unserved | served | late => cases h.calm k _ hc
      | counted | leaving | refused | ended | gone => cases hs
    exact ((h.toFollows.performs hgoes hcalm hqueued).handOver h.ahead).after hcome
  · have habsent : k ∉ t.bulkhead.slots.present :=
      h.bulkhead ▸ h.kept.placed.agrees.absent (Bool.not_eq_true _ ▸ hengaged)
    have hidle : t.bulkhead.step (.cancel k) = t.bulkhead := by
      rw [Bulkhead.step, Slots.discard_absent habsent]
    rw [perform_eq_self hidle]
    exact h.attains

theorem Rested.asks (h : Rested n t c) (hnew : c.stage? k = none) :
    Goes k c (c.runFrom [.come k, .ask k])
      (if (t.bulkhead.step (.acquire k)).slots.holds k then .served else .unserved ⟨t.now, t.limit.map (t.now + ·)⟩)
      (t.bulkhead.step (.acquire k)) := by
  have hcome := goes_come hnew
  have hask := goes_ask hcome.stage
  rw [hcome.bulkhead, hcome.limit, hcome.now, h.bulkhead, h.limit, h.now] at hask
  exact hcome.trans hask

theorem Rested.enters (h : Rested n t c) (hnew : c.stage? k = none)
    (hstay : (t.bulkhead.step (.acquire k)).slots.holds k = true ∨ t.limit ≠ some 0) :
    ∃ (es : List (Event κ)) (s : Stage), (∀ j, .come j ∈ es → some k = some j) ∧
      Goes k c (c.runFrom es) s (t.bulkhead.step (.acquire k)) ∧ s.isCalm = true ∧
      ∀ w, s = .queued w → w.deadline = t.limit.map (t.now + ·) ∧
        (t.bulkhead.step (.acquire k)).slots.holds k = false := by
  have hasks := h.asks hnew
  by_cases hholds : (t.bulkhead.step (.acquire k)).slots.holds k = true
  · rw [if_pos hholds] at hasks
    have huncount := goes_uncount_served hasks.stage
    rw [hasks.bulkhead] at huncount
    exact ⟨[.come k, .ask k, .uncount k], .inside, by simp, hasks.trans huncount, rfl, fun w hw => by cases hw⟩
  · rw [if_neg hholds] at hasks
    have hlook := goes_look hasks.stage
    have hearly : (c.runFrom [.come k, .ask k]).isDue ⟨t.now, t.limit.map (t.now + ·)⟩ = false := by
      rw [isDue, hasks.now, h.now]
      cases hlimit : t.limit with
      | none => rfl
      | some ms =>
        have hpos : ms ≠ 0 := fun hzero => hstay.resolve_left hholds (by rw [hlimit, hzero])
        simpa using hpos
    rw [hearly, if_neg Bool.false_ne_true, hasks.bulkhead] at hlook
    refine ⟨[.come k, .ask k, .look k], _, by simp, hasks.trans hlook, rfl, fun w hw => ?_⟩
    cases hw
    exact ⟨rfl, by simpa using hholds⟩

theorem Rested.refuses (h : Rested n t c) (hnew : c.stage? k = none)
    (hfull : (t.bulkhead.step (.acquire k)).slots.holds k = false) (hlimit : t.limit = some 0) :
    Goes k c (c.runFrom [.come k, .ask k, .look k, .giveUp k, .uncount k]) (.refused 0)
      ((t.bulkhead.step (.acquire k)).step (.expire k)) := by
  have hasks := h.asks hnew
  rw [hfull, if_neg Bool.false_ne_true, hlimit] at hasks
  have hlook := goes_look hasks.stage
  have hdue : (c.runFrom [.come k, .ask k]).isDue ⟨t.now, some (t.now + 0)⟩ = true := by
    rw [isDue, hasks.now, h.now]
    simp
  rw [Option.map_some, hdue, if_pos rfl, hasks.bulkhead] at hlook
  have hlate := hasks.trans hlook
  have hgiveUp := goes_giveUp hlate.stage
  rw [holds, hlate.bulkhead, hfull, if_neg Bool.false_ne_true, hlate.now, h.now, Nat.sub_self] at hgiveUp
  have huncount := goes_uncount_leaving hgiveUp.stage
  rw [hgiveUp.bulkhead] at huncount
  exact (hlate.trans hgiveUp).trans huncount

/-- who asks for a slot takes none from the others, and gives them none -/
theorem holds_acquire (b : Bulkhead κ) (hne : j ≠ k) : (b.step (.acquire k)).slots.holds j = b.slots.holds j := by
  simp only [Bulkhead.step, Slots.arrive]
  split_ifs
  · rfl
  · simp [Slots.holds, hne]
  · rfl

/-- the deadlines that are left once those of a caller are forgotten -/
theorem Rested.others (h : Rested n t c) (k : κ) :
    (t.others k).lookup k = none ∧ (∀ j, j ≠ k → (t.others k).lookup j = t.deadlines.lookup j) ∧
      ((t.others k).map Prod.fst).Nodup ∧ ∀ d ∈ t.others k, t.now < d.2 := by
  have hlookup : ∀ j, (t.others k).lookup j = if j = k then none else t.deadlines.lookup j :=
    Keyed.lookup_remove t.deadlines k
  refine ⟨?_, ?_, h.once.sublist (List.filter_sublist.map _), ?_⟩
  · rw [hlookup, if_pos rfl]
  · intro j hj
    rw [hlookup, if_neg hj]
  · intro d hd
    exact h.ahead d (List.mem_of_mem_filter hd)

theorem Rested.acquire_unlimited (h : Rested n t c) (hnew : c.stage? k = none) (hlimit : t.limit = none) :
    Attains n (some k) (t.perform (.acquire k)) c := by
  obtain ⟨es, s, hcome, hgoes, hcalm, hqueued⟩ := h.enters hnew (Or.inr (by simp [hlimit]))
  have hfollows : Follows n (t.perform (.acquire k)) (c.runFrom es) := by
    refine h.toFollows.goes (u := t.perform (.acquire k)) hgoes hcalm rfl rfl (fun w hw => ?_) (fun _ _ => rfl) h.once
      h.unlimited
    rw [(hqueued w hw).1, hlimit]
    show none = t.deadlines.lookup k
    rw [h.unlimited hlimit]
    rfl
  exact (hfollows.handOver h.ahead).after hcome

theorem Rested.acquire_limited (h : Rested n t c) (hnew : c.stage? k = none) {ms : Nat} (hlimit : t.limit = some ms)
    (hstay : (t.bulkhead.step (.acquire k)).slots.holds k = true ∨ ms ≠ 0) :
    Attains n (some k) ((t.noted k ms).advanceTo t.now) c := by
  obtain ⟨es, s, hcome, hgoes, hcalm, hqueued⟩ := h.enters hnew (hstay.imp_right (by simp [hlimit]))
  obtain ⟨hothers, hsame, honce, -⟩ := h.others k
  have hfound := Keyed.lookup_concat hothers (t.now + ms)
  have hfollows : Follows n (t.noted k ms) (c.runFrom es) := by
    refine h.toFollows.goes (u := t.noted k ms) hgoes hcalm rfl rfl (fun w hw => ?_)
      (fun j hj => (hfound j).trans ((if_neg hj).trans (hsame j hj))) (Keyed.keys_concat honce hothers _)
      fun hnone => by cases hlimit.symm.trans hnone
    rw [(hqueued w hw).1, hlimit]
    exact ((hfound k).trans (if_pos rfl)).symm
  have hunseated : (c.runFrom es).Unseated := by
    intro j w hj
    rw [holds, hgoes.bulkhead]
    by_cases hjk : j = k
    · subst hjk
      exact (hqueued w (Option.some.inj (hgoes.stage.symm.trans hj))).2
    · rw [holds_acquire _ hjk, ← h.bulkhead]
      exact h.unseated j w ((hgoes.others j hjk).symm.trans hj)
  exact (hfollows.advanceTo hunseated (le_refl t.now)).after hcome

theorem Rested.acquire_refused (h : Rested n t c) (hnew : c.stage? k = none) (hlimit : t.limit = some 0)
    (hfull : (t.bulkhead.step (.acquire k)).slots.holds k = false) :
    Attains n (some k) ((t.noted k 0).advanceTo t.now) c := by
  have hgoes := h.refuses hnew hfull hlimit
  obtain ⟨-, hsame, honce, hlater⟩ := h.others k
  -- of all that are noted only its own deadline has come
  have hdue : (t.noted k 0).deadlines.filter (fun d => d.2 ≤ t.now) = [(k, t.now)] := by
    have hnone : (t.others k).filter (fun d => d.2 ≤ t.now) = [] :=
      List.filter_eq_nil_iff.2 fun d hd => by simpa using hlater d hd
    simp [Timed.noted, hnone]
  have hrest : (t.noted k 0).deadlines.filter (fun d => !(d.2 ≤ t.now)) = t.others k := by
    have hall : (t.others k).filter (fun d => !(d.2 ≤ t.now)) = t.others k :=
      List.filter_eq_self.2 fun d hd => by simpa using hlater d hd
    simpa [Timed.noted] using hall
  rw [advanceTo_eq, hdue, hrest]
  have hfollows := h.toFollows.goes
    (u := { t with bulkhead := (t.bulkhead.step (.acquire k)).step (.expire k), deadlines := t.others k })
    hgoes rfl rfl rfl (fun w hw => by cases hw) hsame honce fun hnone => by cases hlimit.symm.trans hnone
  exact (hfollows.handOver hlater).after (by simp)

/-- **A caller comes**: it has a slot, or waits, or is refused at once. -/
theorem Rested.acquire (h : Rested n t c) (hnew : c.stage? k = none) : Attains n (some k) (t.acquire k) c := by
  have habsent : k ∉ t.bulkhead.slots.present := h.bulkhead ▸ h.kept.placed.agrees.absent (by simp [hnew])
  have hacquire : t.acquire k = t.limit.elim (t.perform (.acquire k)) fun ms => (t.noted k ms).advanceTo t.now := by
    obtain ⟨hholders, hline⟩ := not_or.1 (List.mem_append.not.1 habsent)
    simp only [Timed.acquire, Slots.holds, Slots.waits, List.contains_eq_mem, hholders, hline, decide_false, Bool.or_self,
      Bool.false_eq_true, if_false]
    cases t.limit <;> rfl
  rw [hacquire]
  cases hlimit : t.limit with
  | none => exact h.acquire_unlimited hnew hlimit
  | some ms =>
    by_cases hstay : (t.bulkhead.step (.acquire k)).slots.holds k = true ∨ ms ≠ 0
    · exact h.acquire_limited hnew hlimit hstay
    · obtain ⟨hfull, hzero⟩ := not_or.1 hstay
      obtain rfl : ms = 0 := not_not.1 hzero
      exact h.acquire_refused hnew hlimit (by simpa using hfull)

/-! ## Whole runs -/

theorem Rested.waiting (h : Rested n t c) : c.waiting = t.bulkhead.slots.waiting := by
  rw [(h.kept.atRest h.quiet).waiting, ← h.bulkhead]
  exact (Keyed.length_eq_countP h.kept.placed.keys h.kept.placed.agrees.once.of_append_right
    (h.kept.line_iff h.quiet)).symm

/-- **One thing happens**, and the crowd that does the same rests again. -/
theorem Rested.act (h : Rested n t c) (a : Timed.Op κ) (hnew : ∀ k, a.comer? = some k → c.stage? k = none) :
    Attains n a.comer? (t.act a) c := by
  cases a with
  | acquire k => exact h.acquire (hnew k rfl)
  | release k => exact h.release k
  | cancel k => exact h.cancel k
  | advance ms => exact h.toFollows.advanceTo h.unseated (Nat.le_add_right t.now ms)

theorem start_rested (resource : String) (capacity : Nat) (limit : Option Nat) :
    Rested (max capacity 1) (Timed.empty capacity limit : Timed κ) (start resource capacity limit) where
  kept := start_kept resource capacity limit
  bulkhead := rfl
  limit := rfl
  now := rfl
  calm := fun k s hk => by cases hk
  dues := fun k w hk => by cases hk
  once := List.nodup_nil
  unlimited := fun _ => rfl
  quiet := fun p hp => by cases hp
  ahead := fun d hd => by cases hd

/-- a crowd rests after whatever happens to the bulkhead on a clock, if each caller comes once -/
theorem run_rested (resource : String) (capacity : Nat) (limit : Option Nat) {ops : List (Timed.Op κ)}
    (honce : (ops.filterMap Timed.Op.comer?).Nodup) :
    ∃ es : List (Event κ), (∀ k, .come k ∈ es → k ∈ ops.filterMap Timed.Op.comer?) ∧
      Rested (max capacity 1) (Timed.run capacity limit ops) (run resource capacity limit es) := by
  induction ops using List.reverseRecOn with
  | nil => exact ⟨[], by simp, start_rested resource capacity limit⟩
  | append_singleton ops a ih =>
    rw [List.filterMap_append] at honce ⊢
    obtain ⟨es, hcome, hrested⟩ := ih honce.of_append_left
    have hnew : ∀ k, a.comer? = some k → (run resource capacity limit es).stage? k = none := by
      intro k hk
      refine runFrom_stranger rfl fun hmem => ?_
      exact List.disjoint_of_nodup_append honce (hcome k hmem) (List.mem_filterMap.2 ⟨a, List.mem_singleton_self a, hk⟩)
    obtain ⟨es', hcome', hrested'⟩ := hrested.act a hnew
    refine ⟨es ++ es', fun k hk => ?_, ?_⟩
    · refine List.mem_append.2 ((List.mem_append.1 hk).imp (hcome k) fun hk => ?_)
      exact List.mem_filterMap.2 ⟨a, List.mem_singleton_self a, hcome' k hk⟩
    · rw [Timed.run, List.foldl_append, run, runFrom_append]
      exact hrested'

/-- **What a bulkhead on a clock tells** of its slots and of those that wait, a crowd at rest tells of its slots and by its
count, if each caller comes once. -/
theorem timed_follows (resource : String) (capacity : Nat) (limit : Option Nat) {ops : List (Timed.Op κ)}
    (honce : (ops.filterMap Timed.Op.comer?).Nodup) :
    ∃ es : List (Event κ), (run resource capacity limit es).Quiet ∧
      (run resource capacity limit es).bulkhead = (Timed.run capacity limit ops).bulkhead ∧
      (run resource capacity limit es).now = (Timed.run capacity limit ops).now ∧
      (run resource capacity limit es).waiting = (Timed.run capacity limit ops).bulkhead.slots.waiting := by
  obtain ⟨es, -, h⟩ := run_rested resource capacity limit honce
  exact ⟨es, h.quiet, h.bulkhead, h.now, h.waiting⟩

end Follows

end Crowd

end Foreman.Bulkhead

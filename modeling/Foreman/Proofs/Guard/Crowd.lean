/-
The callers of a bulkhead, their slots, and the count of those that wait.

How many slots are taken is read off the slots, and how many callers wait off a count that each caller raises and lowers by
itself. The two are kept apart and change in different steps.

All that a step can do is said once (`Change`). Slots agree with the stages of the callers (`Placed`), the count with the
callers that are counted (`Counted`), and the line with the order in which callers asked (`Ordered`); a step keeps these, and
so does a run.

Results:
- `Placed.change`: all that a step can do.
- `Kept.step`, `run_kept`: slots, count and line are right after any steps.
- `Change.done`, `Change.served`: a caller with its answer has nothing more to do with the bulkhead; whoever is given a slot
  came before all that are still in line.
-/
import Foreman.Guard.Crowd
import Foreman.Proofs.Keyed
import Foreman.Proofs.Slots

namespace Foreman.Bulkhead

/-! ## Stages -/

namespace Stage

def asked : Stage → Bool
  | .counted _ => false
  | _ => true

def waits : Stage → Bool
  | .counted _ | .unserved _ | .queued _ | .served | .late _ | .leaving _ => true
  | _ => false

/-- it has a slot or a place in line -/
def engaged : Stage → Bool
  | .unserved _ | .queued _ | .served | .inside | .late _ => true
  | _ => false

/-- it has been told that it has a slot -/
def seated : Stage → Bool
  | .served | .inside => true
  | _ => false

/-- it has its answer and nothing more to do with the bulkhead -/
def isDone : Stage → Bool
  | .refused _ | .ended _ | .gone => true
  | _ => false

theorem done_apart {s : Stage} (h : s.isDone = true) : s.asked = true ∧ s.waits = false ∧ s.engaged = false := by
  cases s <;> simp_all [isDone, asked, waits, engaged]

end Stage

namespace Crowd

variable {κ : Type} [DecidableEq κ] {c c' : Crowd κ} {k : κ} {n : Nat}

/-! ## Invariants -/

/-- slots and stages agree; there are `n` slots -/
structure Placed (n : Nat) (c : Crowd κ) : Prop where
  keys : (c.callers.map Prod.fst).Nodup
  agrees : c.bulkhead.slots.Agrees n (fun k => (c.stage? k).any Stage.engaged) fun k => (c.stage? k).any Stage.seated

/-- the count is that of the callers that are counted -/
def Counted (c : Crowd κ) : Prop := c.waiting = c.callers.countP fun p => p.2.waits

/-- the line is in the order of arrival, and no slot is free while there is a line -/
structure Ordered (c : Crowd κ) : Prop where
  busy : c.bulkhead.slots.Busy
  line : c.bulkhead.slots.line.Sublist c.arrivals
  once : c.arrivals.Nodup
  asked : ∀ k ∈ c.arrivals, (c.stage? k).any Stage.asked = true

structure Kept (n : Nat) (c : Crowd κ) : Prop where
  placed : Placed n c
  counted : Counted c
  ordered : Ordered c

theorem start_kept (resource : String) (capacity : Nat) (limit : Option Nat) :
    Kept (max capacity 1) (start resource capacity limit : Crowd κ) where
  placed := ⟨List.nodup_nil, Slots.empty_fits _, List.nodup_nil, fun _ => by
    simp [start, Bulkhead.empty, Slots.empty, Slots.present, stage?], fun _ hk => by simp [start, stage?] at hk⟩
  counted := rfl
  ordered := ⟨fun hne => absurd rfl hne, List.Sublist.refl _, List.nodup_nil, fun _ hk => by cases hk⟩

/-! ## What a step can do -/

/-- what a step can make of the crowd -/
inductive Change (c : Crowd κ) : Crowd κ → Prop
  /-- nothing happens, but time may pass -/
  | idle (now : Nat) : Change c { c with now := now }
  /-- a caller comes -/
  | came (k : κ) (hnew : c.stage? k = none) :
      Change c { c with waiting := c.waiting + 1, callers := c.callers ++ [(k, .counted c.now)] }
  /-- a caller asks for a slot -/
  | asked (k : κ) (s : Stage) (b : Bulkhead κ) {started : Nat} (hc : c.stage? k = some (.counted started))
      (hb : b.slots = c.bulkhead.slots.arrive k) (hasked : s.asked = true) (hwaits : s.waits = true)
      (hengaged : s.engaged = true) (hseated : s.seated = true → k ∈ b.slots.holders) :
      Change c ({ c with bulkhead := b, arrivals := c.arrivals ++ [k] }.put k s)
  /-- a caller goes on, which has to do with no slot and with no count -/
  | moved (k : κ) (s s' : Stage) (hc : c.stage? k = some s) (hold : s.engaged = true) (hasked : s'.asked = true)
      (hwaits : s'.waits = s.waits) (hengaged : s'.engaged = true) (hseated : s'.seated = true → k ∈ c.bulkhead.slots.holders) :
      Change c (c.put k s')
  /-- a caller is counted no more -/
  | uncounted (k : κ) (s s' : Stage) (hc : c.stage? k = some s) (hasked : s'.asked = true) (hwaits : s.waits = true)
      (hwaits' : s'.waits = false) (hengaged : s'.engaged = s.engaged) (hseated : s'.seated = s.seated) :
      Change c ({ c with waiting := c.waiting - 1 }.put k s')
  /-- a caller gives up its slot or its place in line -/
  | vacated (k : κ) (s s' : Stage) (b : Bulkhead κ) (hc : c.stage? k = some s) (hold : s.engaged = true)
      (hb : b.slots = (c.bulkhead.slots.discard k).1) (hasked : s'.asked = true) (hwaits : s'.waits = s.waits)
      (hengaged : s'.engaged = false) (hseated : s'.seated = false) : Change c ({ c with bulkhead := b }.put k s')

theorem stage?_put (c : Crowd κ) (k j : κ) (s : Stage) :
    (c.put k s).stage? j = if j = k then (c.stage? k).map fun _ => s else c.stage? j :=
  Keyed.lookup_replace c.callers k j s

theorem any_put {s : Stage} (hc : c.stage? k = some s) (s' : Stage) (f : Stage → Bool) (j : κ) :
    ((c.put k s').stage? j).any f = if j = k then f s' else (c.stage? j).any f :=
  Keyed.any_replace hc s' f j

section Placed

variable (h : Placed n c)
include h

theorem Placed.seated_out {s : Stage} (hc : c.stage? k = some s) (hs : s.seated = true) :
    k ∈ c.bulkhead.slots.holders ∧ k ∉ c.bulkhead.slots.line := by
  have hholds := h.agrees.seated k (by simp [hc, hs])
  exact ⟨hholds, List.disjoint_of_nodup_append h.agrees.once hholds⟩

/-- **All that a step can do.** -/
theorem Placed.change (e : Event κ) : Change c (c.step e) := by
  cases e with
  | come k =>
    simp only [step]
    cases hc : c.stage? k with
    | some s => exact .idle c.now
    | none => exact .came k hc
  | ask k =>
    simp only [step]
    split
    · rename_i started hc
      have hout := h.agrees.absent (k := k) (by simp [hc, Stage.engaged])
      obtain ⟨hholders, hline⟩ := not_or.1 (List.mem_append.not.1 hout)
      have hslots : (c.bulkhead.step (.acquire k)).slots = c.bulkhead.slots.arrive k := by
        simp [Bulkhead.step, Slots.holds, Slots.waits, hholders, hline]
      refine .asked k _ _ hc hslots ?_ ?_ ?_ ?_
      · split_ifs <;> rfl
      · split_ifs <;> rfl
      · split_ifs <;> rfl
      · split_ifs with hholds
        · exact fun _ => by simpa [holds, perform, Slots.holds] using hholds
        · exact fun hs => by cases hs
    · exact .idle c.now
  | look k =>
    simp only [step]
    split
    · rename_i w hc
      refine .moved k _ _ hc rfl ?_ ?_ ?_ ?_
      all_goals split_ifs
      all_goals first | rfl | exact fun hs => by cases hs
    · exact .idle c.now
  | poll k =>
    simp only [step]
    split
    · rename_i w hc
      refine .moved k _ _ hc rfl ?_ ?_ ?_ ?_
      · split_ifs <;> rfl
      · split_ifs <;> rfl
      · split_ifs <;> rfl
      · split_ifs with hholds
        · exact fun _ => by simpa [holds, Slots.holds] using hholds
        · exact fun hs => by cases hs
    · exact .idle c.now
  | giveUp k =>
    simp only [step]
    split
    · rename_i w hc
      have hpresent := (h.agrees.engaged k).2 (by simp [hc, Stage.engaged])
      refine .vacated k _ _ _ hc rfl ?_ rfl rfl rfl rfl
      split_ifs with hholds
      · rfl
      · -- without a slot it stands in line, and leaves nothing but its place
        have hholders : k ∉ c.bulkhead.slots.holders := by simpa [holds, Slots.holds] using hholds
        have hline : k ∈ c.bulkhead.slots.line := (List.mem_append.1 hpresent).resolve_left hholders
        simp [Bulkhead.step, Slots.waits, hline, Slots.discard, Slots.release, Slots.leave, Slots.holds, hholders]
    · exact .idle c.now
  | uncount k =>
    simp only [step]
    split
    · rename_i hc
      exact .uncounted k _ _ hc rfl rfl rfl rfl rfl
    · rename_i waited hc
      cases waited <;> exact .uncounted k _ _ hc rfl rfl rfl rfl rfl
    · exact .idle c.now
  | finish k error =>
    simp only [step]
    split
    · rename_i hc
      have hline := (h.seated_out hc rfl).2
      refine .vacated k _ _ _ hc rfl ?_ rfl rfl rfl rfl
      simp [Bulkhead.step, Slots.discard, Slots.leave, List.erase_of_not_mem hline]
    · exact .idle c.now
  | cancel k =>
    simp only [step]
    split
    · rename_i w hc
      exact .vacated k _ _ _ hc rfl rfl rfl rfl rfl rfl
    · rename_i hc
      exact .vacated k _ _ _ hc rfl rfl rfl rfl rfl rfl
    · exact .idle c.now
  | pass ms => exact .idle _

end Placed

/-! ## What a step keeps -/

theorem keys_put (c : Crowd κ) (k : κ) (s : Stage) : (c.put k s).callers.map Prod.fst = c.callers.map Prod.fst :=
  Keyed.keys_replace c.callers k s

theorem Change.placed (h : Placed n c) (hchange : Change c c') : Placed n c' := by
  cases hchange with
  | idle => exact ⟨h.keys, h.agrees⟩
  | came k hnew =>
    exact ⟨Keyed.keys_concat h.keys hnew _, h.agrees.stay (Keyed.any_concat_of_not hnew rfl) fun j hj =>
      .inl ((Keyed.any_concat_of_not hnew rfl j).symm.trans hj)⟩
  | asked k s b hc hb hasked hwaits hengaged hseated =>
    refine ⟨(keys_put _ k s).symm ▸ h.keys, ?_⟩
    show b.slots.Agrees n _ _
    rw [hb] at hseated ⊢
    refine h.agrees.arrive (by simp [hc, Stage.engaged]) (fun j => ?_) fun j hj => ?_
    · exact (any_put hc s Stage.engaged j).trans (by rw [hengaged])
    · replace hj := (any_put hc s Stage.seated j).symm.trans hj
      split_ifs at hj with hjk
      · exact .inr (hjk ▸ hseated hj)
      · exact .inl ⟨hjk, hj⟩
  | moved k s s' hc hold hasked hwaits hengaged hseated =>
    refine ⟨(keys_put _ k s').symm ▸ h.keys,
      h.agrees.stay (Keyed.any_replace_of_eq hc (hengaged.trans hold.symm)) fun j hj => ?_⟩
    replace hj := (any_put hc s' Stage.seated j).symm.trans hj
    split_ifs at hj with hjk
    · exact .inr (hjk ▸ hseated hj)
    · exact .inl hj
  | uncounted k s s' hc hasked hwaits hwaits' hengaged hseated =>
    exact ⟨(keys_put _ k s').symm ▸ h.keys, h.agrees.stay (Keyed.any_replace_of_eq hc hengaged) fun j hj =>
      .inl ((Keyed.any_replace_of_eq hc hseated j).symm.trans hj)⟩
  | vacated k s s' b hc hold hb hasked hwaits hengaged hseated =>
    refine ⟨(keys_put _ k s').symm ▸ h.keys, ?_⟩
    show b.slots.Agrees n _ _
    rw [hb]
    refine h.agrees.discard (k := k) (fun j => ?_) fun j hj => ?_
    · exact (any_put hc s' Stage.engaged j).trans (by rw [hengaged])
    · replace hj := (any_put hc s' Stage.seated j).symm.trans hj
      rw [hseated] at hj
      split_ifs at hj with hjk
      exact ⟨hjk, hj⟩

theorem Change.counted (hkeys : (c.callers.map Prod.fst).Nodup) (h : Counted c) (hchange : Change c c') : Counted c' := by
  unfold Counted at h ⊢
  cases hchange with
  | idle => exact h
  | came k hnew =>
    show c.waiting + 1 = (c.callers ++ [(k, Stage.counted c.now)]).countP _
    rw [h, List.countP_append, List.countP_singleton]
    rfl
  | asked k s b hc hb hasked hwaits => exact h.trans (Keyed.countP_replace_of_eq hkeys hc hwaits).symm
  | moved k s s' hc hold hasked hwaits => exact h.trans (Keyed.countP_replace_of_eq hkeys hc hwaits).symm
  | uncounted k s s' hc hasked hwaits hwaits' =>
    have hcount := Keyed.countP_replace hkeys hc Stage.waits s'
    rw [hwaits, hwaits', ← h] at hcount
    exact (Nat.eq_sub_of_add_eq hcount).symm
  | vacated k s s' b hc hold hb hasked hwaits => exact h.trans (Keyed.countP_replace_of_eq hkeys hc hwaits).symm

theorem Change.ordered (h : Ordered c) (hchange : Change c c') : Ordered c' := by
  have hput : ∀ {k : κ} {s s' : Stage} (hc : c.stage? k = some s) (hs : s'.asked = true), ∀ j ∈ c.arrivals,
      ((c.put k s').stage? j).any Stage.asked = true := by
    intro k s s' hc hs j hj
    rw [any_put hc]
    split_ifs
    · exact hs
    · exact h.asked j hj
  cases hchange with
  | idle => exact ⟨h.busy, h.line, h.once, h.asked⟩
  | came k hnew =>
    refine ⟨h.busy, h.line, h.once, fun j hj => ?_⟩
    have hasked := h.asked j hj
    have hjk : j ≠ k := fun he => by simp [he, hnew] at hasked
    exact (congrArg (Option.any Stage.asked) ((Keyed.lookup_concat hnew _ j).trans (if_neg hjk))).trans hasked
  | asked k s b hc hb hasked =>
    have hnot : k ∉ c.arrivals := fun hmem => by simpa [hc, Stage.asked] using h.asked k hmem
    refine ⟨?_, ?_, h.once.append (List.nodup_singleton k) (by simpa using hnot), fun j hj => ?_⟩
    · exact (congrArg Slots.Busy hb).mpr (Slots.arrive_busy h.busy k)
    · exact (congrArg Slots.line hb) ▸ (Slots.arrive_line _ k).trans (h.line.append_right [k])
    · rcases List.mem_append.1 hj with hj | hj
      · exact hput hc hasked j hj
      · rw [List.mem_singleton.1 hj]
        exact (any_put hc s Stage.asked k).trans ((if_pos rfl).trans hasked)
  | moved k s s' hc hold hasked => exact ⟨h.busy, h.line, h.once, hput hc hasked⟩
  | uncounted k s s' hc hasked => exact ⟨h.busy, h.line, h.once, hput hc hasked⟩
  | vacated k s s' b hc hold hb hasked =>
    refine ⟨?_, ?_, h.once, hput hc hasked⟩
    · exact (congrArg Slots.Busy hb).mpr (Slots.discard_busy h.busy k)
    · exact (congrArg Slots.line hb) ▸ (Slots.discard_line _ k).trans h.line

theorem Change.resource (hchange : Change c c') : c'.resource = c.resource := by
  cases hchange <;> rfl

theorem Change.done (hchange : Change c c') {s : Stage} (hc : c.stage? k = some s) (hs : s.isDone = true) :
    c'.stage? k = some s := by
  obtain ⟨hasked, hwaits, hengaged⟩ := Stage.done_apart hs
  have hput : ∀ {j : κ} {t t' : Stage}, c.stage? j = some t → t ≠ s → (c.put j t').stage? k = some s := by
    intro j t t' hj hne
    rw [stage?_put, if_neg, hc]
    rintro rfl
    exact hne (Option.some.inj (hj.symm.trans hc))
  cases hchange with
  | idle => exact hc
  | came j hnew =>
    have hkj : k ≠ j := fun he => by simp [← he, hc] at hnew
    exact (Keyed.lookup_concat hnew _ k).trans ((if_neg hkj).trans hc)
  | asked j t b hj => exact hput hj fun he => by simp [← he, Stage.asked] at hasked
  | moved j t t' hj hold => exact hput hj fun he => by simp [← he, hold] at hengaged
  | uncounted j t t' hj hasked' hwaits' => exact hput hj fun he => by simp [← he, hwaits'] at hwaits
  | vacated j t t' b hj hold => exact hput hj fun he => by simp [← he, hold] at hengaged

/-- **Whoever is given a slot came before all that are still in line.** -/
theorem Change.served (h : Ordered c) (hchange : Change c c') (hk : k ∉ c.bulkhead.slots.holders)
    (hk' : k ∈ c'.bulkhead.slots.holders) : ∀ j ∈ c'.bulkhead.slots.line, [k, j].Sublist c'.arrivals := by
  intro j hj
  cases hchange with
  | idle | came | moved | uncounted => exact absurd hk' hk
  | asked i s b hc hb =>
    -- a slot was free for it, so there is no line
    replace hk' : k ∈ b.slots.holders := hk'
    replace hj : j ∈ b.slots.line := hj
    rw [hb] at hk' hj
    rw [Slots.arrive_handed hk hk'] at hj
    cases hj
  | vacated i s s' b hc hold hb =>
    replace hk' : k ∈ b.slots.holders := hk'
    replace hj : j ∈ b.slots.line := hj
    rw [hb] at hk' hj
    have hline : (k :: (c.bulkhead.slots.discard i).1.line).Sublist c.arrivals :=
      Slots.discard_handed hk hk' ▸ List.erase_sublist.trans h.line
    exact ((List.singleton_sublist.2 hj).cons_cons k).trans hline

theorem Kept.step (h : Kept n c) (e : Event κ) : Kept n (c.step e) :=
  have hchange := h.placed.change e
  ⟨hchange.placed h.placed, hchange.counted h.placed.keys h.counted, hchange.ordered h.ordered⟩

/-- what a caller was told it was told for good -/
theorem Kept.runFrom_done (h : Kept n c) {s : Stage} (hc : c.stage? k = some s) (hs : s.isDone = true) (es : List (Event κ)) :
    (c.runFrom es).stage? k = some s ∧ (c.runFrom es).resource = c.resource := by
  induction es generalizing c with
  | nil => exact ⟨hc, rfl⟩
  | cons e es ih =>
    have hchange := h.placed.change e
    obtain ⟨hstage, hresource⟩ := ih (h.step e) (hchange.done hc hs)
    exact ⟨hstage, hresource.trans hchange.resource⟩

theorem Kept.runFrom (h : Kept n c) (es : List (Event κ)) : Kept n (c.runFrom es) := by
  induction es generalizing c with
  | nil => exact h
  | cons e es ih => exact ih (h.step e)

/-- **Slots, count and line are right after any steps.** -/
theorem run_kept (resource : String) (capacity : Nat) (limit : Option Nat) (es : List (Event κ)) :
    Kept (max capacity 1) (run resource capacity limit es) :=
  (start_kept resource capacity limit).runFrom es

end Crowd

end Foreman.Bulkhead

/-
The history of a circuit breaker.

A run is looked at turn by turn: what is done, and the desk that it is done at. What a turn tells the breaker is heard
from a trial, and from a normal permit of the present epoch; a normal permit of an older epoch is not heard. By the
rules of the breaker a normal permit is stale also while the circuit is not closed, but then it is of an older epoch
anyway: `Dated.present` is what carries this through all openings and closings, so the epoch alone decides.

Results:
- `turn_change`: all that a turn can do to the breaker, said once.
- `run_dated`:   no permit is from a later epoch, and one of the present epoch is normal only if the circuit is closed.
- `run_epoch`:   the epoch counts the openings.
-/
import Foreman.Proofs.Breaker

namespace Foreman.Breaker

variable {κ : Type} [DecidableEq κ]

/-! ## Turns -/

/-- one step of a run: the desk that it meets, and what is done -/
structure Turn (κ : Type) where
  desk : Desk κ
  op : Op κ

def Turn.next (t : Turn κ) : Desk κ := step t.desk t.op

def turns (d : Desk κ) : List (Op κ) → List (Turn κ)
  | [] => []
  | o :: ops => ⟨d, o⟩ :: turns (step d o) ops

def history (threshold : UInt32) (reset : Duration) (ops : List (Op κ)) : List (Turn κ) :=
  turns ⟨closed threshold reset, []⟩ ops

theorem turns_append (d : Desk κ) (ops more : List (Op κ)) :
    turns d (ops ++ more) = turns d ops ++ turns (ops.foldl step d) more := by
  induction ops generalizing d with
  | nil => rfl
  | cons o ops ih => simp [turns, ih]

theorem run_snoc (threshold : UInt32) (reset : Duration) (ops : List (Op κ)) (o : Op κ) :
    run threshold reset (ops ++ [o]) = step (run threshold reset ops) o := by
  simp [run, List.foldl_append]

theorem history_snoc (threshold : UInt32) (reset : Duration) (ops : List (Op κ)) (o : Op κ) :
    history threshold reset (ops ++ [o]) = history threshold reset ops ++ [⟨run threshold reset ops, o⟩] := by
  rw [history, turns_append]
  rfl

namespace Turn

/-- the permit that a turn ends, with the verdict; a permit that is dropped has none -/
def ends? (t : Turn κ) : Option (Permit × Option Verdict) :=
  match t.op with
  | .acquire .. => none
  | .settle caller v _ => (t.desk.take caller).map fun q => (q.1, some v)
  | .drop caller => (t.desk.take caller).map fun q => (q.1, none)

/-- what the breaker hears in a turn: the end of a trial, or of a normal permit of the present epoch -/
def heard (t : Turn κ) : Option (PermitKind × Option Verdict) :=
  match t.ends? with
  | some (p, v) => if p.kind = .normal ∧ p.epoch ≠ t.desk.breaker.epoch then none else some (p.kind, v)
  | none => none

def opens (t : Turn κ) : Bool := t.desk.breaker.circuit != .opened && t.next.breaker.circuit == .opened

def closes (t : Turn κ) : Bool := t.desk.breaker.circuit != .closed && t.next.breaker.circuit == .closed

/-- a call with a normal permit of the present epoch fails in this turn -/
def fails (t : Turn κ) : Bool := t.heard == some (.normal, some .failure)

/-- a call with a normal permit of the present epoch succeeds in this turn -/
def succeeds (t : Turn κ) : Bool := t.heard == some (.normal, some .success)

end Turn

/-! ## Permits of older and of the present epoch -/

/-- permits and marks fit to the state of the circuit -/
structure Dated (d : Desk κ) : Prop where
  past : ∀ q ∈ d.out, q.2.epoch ≤ d.breaker.epoch
  /-- a normal permit of the present epoch is from the circuit as it is now, closed -/
  present : ∀ q ∈ d.out, q.2.kind = .normal → q.2.epoch = d.breaker.epoch → d.breaker.circuit = .closed
  below : d.breaker.circuit = .closed → d.breaker.failures < d.breaker.threshold
  fits : d.breaker.threshold ≤ mostFailures
  unmarked : d.breaker.circuit = .closed → d.breaker.openedAt = none
  marked : d.breaker.circuit = .opened → d.breaker.openedAt.isSome = true

omit [DecidableEq κ] in
/-- **The count of a closed circuit is never at its greatest**, so each failure raises it by one. -/
theorem Dated.room {d : Desk κ} (h : Dated d) (hc : d.breaker.circuit = .closed) :
    d.breaker.failures < mostFailures ∧ min (d.breaker.failures + 1) mostFailures = d.breaker.failures + 1 := by
  have hlt : d.breaker.failures < mostFailures := (h.below hc).trans_le h.fits
  exact ⟨hlt, min_eq_left hlt⟩

/-- an old normal permit changes nothing -/
theorem settle_old (b : Breaker) {p : Permit} (hp : p.kind = .normal) (he : p.epoch ≠ b.epoch) (v : Verdict)
    (now : Nat) : b.settle p v now = b := by
  have hs : b.isStale p = true := by simp [isStale, hp, he]
  cases v <;> simp [settle, succeed, fail, abandon, hs, hp]

omit [DecidableEq κ] in
theorem TrialInv.halfOpen {d : Desk κ} (h : TrialInv d) {q : κ × Permit} (hq : q ∈ d.out) (hk : q.2.kind = .trial) :
    d.breaker.circuit = .halfOpen := by
  refine h.half ?_
  have hcount := h.count
  have hpos : 0 < d.trials := List.countP_pos_iff.2 ⟨q, hq, by simp [hk]⟩
  cases hm : d.breaker.trialInFlight with
  | true => rfl
  | false =>
    rw [hm, Bool.toNat_false] at hcount
    omega

theorem mem_of_take {d : Desk κ} {caller : κ} {p : Permit} {rest : List (κ × Permit)}
    (h : d.take caller = some (p, rest)) : (caller, p) ∈ d.out ∧ rest ⊆ d.out := by
  obtain ⟨pre, post, hout, rfl⟩ := take_some h
  rw [hout]
  exact ⟨by simp, by intro q hq; simp only [List.mem_append, List.mem_cons] at hq ⊢; tauto⟩

/-! ## What a turn can do -/

/-- what a turn can make of the breaker, with what is heard in it -/
inductive Change (t : Turn κ) : Breaker → Prop where
  /-- a normal permit without an outcome, or nothing, is heard -/
  | same (h : t.heard = none ∨ t.heard = some (.normal, none) ∨ t.heard = some (.normal, some .exhaustion)) :
      Change t t.desk.breaker
  /-- a trial is let through -/
  | admitted (h : t.heard = none) (hc : t.desk.breaker.circuit ≠ .closed) :
      Change t { t.desk.breaker with circuit := .halfOpen, trialInFlight := true }
  | calmed (h : t.heard = some (.normal, some .success)) (hc : t.desk.breaker.circuit = .closed) :
      Change t { t.desk.breaker with failures := 0 }
  | counted (now : Nat) (h : t.heard = some (.normal, some .failure)) (hc : t.desk.breaker.circuit = .closed)
      (hlow : t.desk.breaker.failures + 1 < t.desk.breaker.threshold) :
      Change t { t.desk.breaker with failures := t.desk.breaker.failures + 1, lastFailure := some now }
  /-- the threshold is reached -/
  | tripped (now : Nat) (h : t.heard = some (.normal, some .failure)) (hc : t.desk.breaker.circuit = .closed)
      (hhigh : t.desk.breaker.threshold ≤ t.desk.breaker.failures + 1) :
      Change t (trip { t.desk.breaker with failures := t.desk.breaker.failures + 1, lastFailure := some now } now)
  | recovered (h : t.heard = some (.trial, some .success)) (hc : t.desk.breaker.circuit = .halfOpen) :
      Change t { t.desk.breaker with failures := 0, trialInFlight := false, circuit := .closed, openedAt := none }
  | relapsed (now : Nat) (h : t.heard = some (.trial, some .failure)) (hc : t.desk.breaker.circuit = .halfOpen) :
      Change t (trip { t.desk.breaker with
        failures := min (t.desk.breaker.failures + 1) mostFailures
        lastFailure := some now
        trialInFlight := false } now)
  /-- a trial ends without an outcome -/
  | freed (h : t.heard = some (.trial, none) ∨ t.heard = some (.trial, some .exhaustion))
      (hc : t.desk.breaker.circuit = .halfOpen) : Change t { t.desk.breaker with trialInFlight := false }

/-- a turn that ends a permit settles it; a permit that is dropped ends like one whose call was exhausted -/
theorem ends_settle {t : Turn κ} {p : Permit} {v : Option Verdict} (h : t.ends? = some (p, v)) :
    ∃ caller rest now, t.desk.take caller = some (p, rest) ∧
      t.next = ⟨t.desk.breaker.settle p (v.getD .exhaustion) now, rest⟩ := by
  obtain ⟨d, o⟩ := t
  cases o with
  | acquire caller now => simp [Turn.ends?] at h
  | settle caller v' now =>
    obtain ⟨q, hq, heq⟩ := Option.map_eq_some_iff.1 h
    simp only [Prod.mk.injEq] at heq
    obtain ⟨rfl, rfl⟩ := heq
    exact ⟨caller, q.2, now, hq, by simp [Turn.next, step, hq]⟩
  | drop caller =>
    obtain ⟨q, hq, heq⟩ := Option.map_eq_some_iff.1 h
    simp only [Prod.mk.injEq] at heq
    obtain ⟨rfl, rfl⟩ := heq
    exact ⟨caller, q.2, 0, hq, by simp [Turn.next, step, hq, abandon_eq_settle _ _ 0]⟩

theorem ends_none {t : Turn κ} (h : t.ends? = none) :
    t.next = t.desk ∨ ∃ caller now b p, t.desk.breaker.acquire now = .ok (b, p) ∧
      t.next = ⟨b, t.desk.out ++ [(caller, p)]⟩ := by
  obtain ⟨d, o⟩ := t
  cases o with
  | acquire caller now => exact (step_acquire d caller now).imp_right fun ⟨b, p, hb⟩ => ⟨caller, now, b, p, hb⟩
  | settle caller v now =>
    have hnone : d.take caller = none := by simpa [Turn.ends?] using h
    exact Or.inl (by simp [Turn.next, step, hnone])
  | drop caller =>
    have hnone : d.take caller = none := by simpa [Turn.ends?] using h
    exact Or.inl (by simp [Turn.next, step, hnone])

theorem normal_change {t : Turn κ} {p : Permit} {v : Option Verdict} (hd : Dated t.desk)
    (hc : t.desk.breaker.circuit = .closed)
    (hk : p.kind = .normal) (hepoch : p.epoch = t.desk.breaker.epoch)
    (hheard : t.heard = some (.normal, v)) (now : Nat) :
    Change t (t.desk.breaker.settle p (v.getD .exhaustion) now) := by
  have hstale : t.desk.breaker.isStale p = false := by simp [isStale, hepoch, hc]
  cases v with
  | none =>
    have hb : t.desk.breaker.settle p .exhaustion now = t.desk.breaker := by simp [settle, abandon, hk]
    rw [Option.getD_none, hb]
    exact .same (Or.inr (Or.inl hheard))
  | some v =>
    cases v with
    | exhaustion =>
      have hb : t.desk.breaker.settle p .exhaustion now = t.desk.breaker := by simp [settle, abandon, hk]
      rw [Option.getD_some, hb]
      exact .same (Or.inr (Or.inr hheard))
    | success =>
      have hb : t.desk.breaker.settle p .success now = { t.desk.breaker with failures := 0 } := by
        simp [settle, succeed, hstale, hk]
      exact hb ▸ .calmed hheard hc
    | failure =>
      obtain ⟨-, hroom⟩ := hd.room hc
      by_cases hlow : t.desk.breaker.failures + 1 < t.desk.breaker.threshold
      · have hb : t.desk.breaker.settle p .failure now =
            { t.desk.breaker with failures := t.desk.breaker.failures + 1, lastFailure := some now } := by
          simp [settle, fail, hstale, hk, hroom, hlow]
        exact hb ▸ .counted now hheard hc hlow
      · have hb : t.desk.breaker.settle p .failure now = trip
            { t.desk.breaker with failures := t.desk.breaker.failures + 1, lastFailure := some now } now := by
          simp [settle, fail, hstale, hk, hroom, not_lt.1 hlow]
        exact hb ▸ .tripped now hheard hc (not_lt.1 hlow)

theorem trial_change {t : Turn κ} {p : Permit} {v : Option Verdict} (hc : t.desk.breaker.circuit = .halfOpen)
    (hk : p.kind = .trial) (hheard : t.heard = some (.trial, v)) (now : Nat) :
    Change t (t.desk.breaker.settle p (v.getD .exhaustion) now) := by
  have hstale : t.desk.breaker.isStale p = false := by simp [isStale, hk]
  cases v with
  | none =>
    have hb : t.desk.breaker.settle p .exhaustion now = { t.desk.breaker with trialInFlight := false } := by
      simp [settle, abandon, hk]
    exact hb ▸ .freed (Or.inl hheard) hc
  | some v =>
    cases v with
    | exhaustion =>
      have hb : t.desk.breaker.settle p .exhaustion now = { t.desk.breaker with trialInFlight := false } := by
        simp [settle, abandon, hk]
      exact hb ▸ .freed (Or.inr hheard) hc
    | success =>
      have hb : t.desk.breaker.settle p .success now =
          { t.desk.breaker with failures := 0, trialInFlight := false, circuit := .closed, openedAt := none } := by
        simp [settle, succeed, hstale, hk]
      exact hb ▸ .recovered hheard hc
    | failure =>
      have hb : t.desk.breaker.settle p .failure now = trip { t.desk.breaker with
          failures := min (t.desk.breaker.failures + 1) mostFailures
          lastFailure := some now
          trialInFlight := false } now := by
        simp [settle, fail, hstale, hk]
      exact hb ▸ .relapsed now hheard hc

/-- **All that a turn can do to the breaker** -/
theorem turn_change {t : Turn κ} (ht : TrialInv t.desk) (hd : Dated t.desk) : Change t t.next.breaker := by
  cases he : t.ends? with
  | none =>
    have hheard : t.heard = none := by simp [Turn.heard, he]
    rcases ends_none he with hsame | ⟨caller, now, b, p, ha, hnext⟩
    · rw [hsame]
      exact .same (Or.inl hheard)
    · rw [hnext]
      rcases acquire_cases ha with ⟨hc, -, rfl⟩ | ⟨hc, -, rfl⟩
      · exact .same (Or.inl hheard)
      · refine .admitted hheard ?_
        rcases hc with hc | ⟨hc, -⟩ <;> simp [hc]
  | some e =>
    obtain ⟨p, v⟩ := e
    obtain ⟨caller, rest, now, htake, hnext⟩ := ends_settle he
    have hout := (mem_of_take htake).1
    rw [hnext]
    cases hk : p.kind with
    | normal =>
      by_cases hepoch : p.epoch = t.desk.breaker.epoch
      · exact normal_change hd (hd.present _ hout hk hepoch) hk hepoch (by simp [Turn.heard, he, hk, hepoch]) now
      · rw [settle_old _ hk hepoch]
        exact .same (Or.inl (by simp [Turn.heard, he, hk, hepoch]))
    | trial => exact trial_change (ht.halfOpen hout hk) hk (by simp [Turn.heard, he, hk]) now

/-! ## What turns keep -/

omit [DecidableEq κ] in
theorem dated_closed (threshold : UInt32) (reset : Duration) : Dated (κ := κ) ⟨closed threshold reset, []⟩ :=
  { past := by simp
    present := by simp
    below := fun _ => by simp [closed]
    fits := max_le (Nat.le_sub_one_of_lt threshold.toNat_lt) (by decide)
    unmarked := fun _ => rfl
    marked := fun h => by simp [closed] at h }

/-- the permits after a turn are permits from before, or one of them is new, from the present epoch and normal only if
the circuit is closed -/
theorem out_next {t : Turn κ} {q : κ × Permit} (hq : q ∈ t.next.out) :
    q ∈ t.desk.out ∨
      q.2.epoch = t.desk.breaker.epoch ∧ t.next.breaker.epoch = t.desk.breaker.epoch ∧
        (q.2.kind = .normal → t.next.breaker.circuit = .closed) := by
  cases he : t.ends? with
  | none =>
    rcases ends_none he with hsame | ⟨caller, now, b, p, ha, hnext⟩
    · exact Or.inl (hsame ▸ hq)
    · rw [hnext] at hq ⊢
      rcases List.mem_append.1 hq with hq | hq
      · exact Or.inl hq
      · rw [List.mem_singleton.1 hq]
        rcases acquire_cases ha with ⟨hc, rfl, rfl⟩ | ⟨-, rfl, rfl⟩
        · exact Or.inr ⟨rfl, rfl, fun _ => hc⟩
        · exact Or.inr ⟨rfl, rfl, fun hk => by cases hk⟩
  | some e =>
    obtain ⟨caller, rest, now, htake, hnext⟩ := ends_settle (p := e.1) (v := e.2) he
    rw [hnext] at hq
    exact Or.inl ((mem_of_take htake).2 hq)

/-- the epoch goes on by one exactly when the circuit opens; else a closed circuit stays closed -/
theorem Change.epoch {t : Turn κ} {b : Breaker} (h : Change t b) :
    (b.epoch = t.desk.breaker.epoch ∧ (t.desk.breaker.circuit = .closed → b.circuit = .closed) ∧
        (b.circuit = .opened → t.desk.breaker.circuit = .opened)) ∨
      (b.epoch = t.desk.breaker.epoch + 1 ∧ b.circuit = .opened ∧ t.desk.breaker.circuit ≠ .opened) := by
  cases h with
  | same _ => exact Or.inl ⟨rfl, id, id⟩
  | admitted _ hc => exact Or.inl ⟨rfl, fun h => absurd h hc, nofun⟩
  | calmed _ _ => exact Or.inl ⟨rfl, id, id⟩
  | counted _ _ _ _ => exact Or.inl ⟨rfl, id, id⟩
  | tripped _ _ hc _ => exact Or.inr ⟨rfl, rfl, by simp [hc]⟩
  | recovered _ _ => exact Or.inl ⟨rfl, fun _ => rfl, nofun⟩
  | relapsed _ _ hc => exact Or.inr ⟨rfl, rfl, by simp [hc]⟩
  | freed _ _ => exact Or.inl ⟨rfl, id, id⟩

/-- a turn keeps a closed circuit below its threshold, and the mark of an open one -/
theorem Change.marks {t : Turn κ} {b : Breaker} (hd : Dated t.desk) (hpos : 0 < t.desk.breaker.threshold)
    (h : Change t b) :
    (b.circuit = .closed → b.failures < b.threshold ∧ b.openedAt = none) ∧
      (b.circuit = .opened → b.openedAt.isSome = true) := by
  have hbelow := fun hc => And.intro (hd.below hc) (hd.unmarked hc)
  cases h with
  | same _ => exact ⟨hbelow, hd.marked⟩
  | admitted _ _ => exact ⟨nofun, nofun⟩
  | calmed _ hc => exact ⟨fun _ => ⟨hpos, hd.unmarked hc⟩, hd.marked⟩
  | counted _ _ hc hlow => exact ⟨fun _ => ⟨hlow, hd.unmarked hc⟩, hd.marked⟩
  | tripped _ _ _ _ => exact ⟨nofun, fun _ => rfl⟩
  | recovered _ _ => exact ⟨fun _ => ⟨hpos, rfl⟩, nofun⟩
  | relapsed _ _ _ => exact ⟨nofun, fun _ => rfl⟩
  | freed _ hc => exact ⟨hbelow, hd.marked⟩

theorem Change.threshold {t : Turn κ} {b : Breaker} (h : Change t b) : b.threshold = t.desk.breaker.threshold := by
  cases h <;> rfl

theorem next_dated {t : Turn κ} (ht : TrialInv t.desk) (hd : Dated t.desk) (hpos : 0 < t.desk.breaker.threshold) :
    Dated t.next := by
  have hchange := turn_change ht hd
  obtain ⟨hclosed, hopened⟩ := hchange.marks hd hpos
  refine ⟨fun q hq => ?_, fun q hq hk he => ?_, fun hc => (hclosed hc).1, hchange.threshold.trans_le hd.fits,
    fun hc => (hclosed hc).2, hopened⟩
  · rcases out_next hq with hold | ⟨he, hsame, -⟩
    · have hpast := hd.past q hold
      rcases hchange.epoch with ⟨hsame, -⟩ | ⟨hnew, -⟩ <;> omega
    · omega
  · rcases out_next hq with hold | ⟨-, -, hnormal⟩
    · have hpast := hd.past q hold
      rcases hchange.epoch with ⟨hsame, hkept, -⟩ | ⟨hnew, -⟩
      · exact hkept (hd.present q hold hk (he.trans hsame))
      · omega
    · exact hnormal hk

/-- **What holds of every run**: permits and marks fit to the state of the circuit -/
theorem run_dated (threshold : UInt32) (reset : Duration) (ops : List (Op κ)) :
    Dated (run threshold reset ops) ∧ (run threshold reset ops).breaker.threshold = max threshold.toNat 1 := by
  induction ops using List.reverseRecOn with
  | nil => exact ⟨dated_closed threshold reset, rfl⟩
  | append_singleton ops o ih =>
    obtain ⟨hd, hthreshold⟩ := ih
    have ht := run_trialInv threshold reset ops
    have hpos : 0 < (run threshold reset ops).breaker.threshold := by omega
    rw [run_snoc]
    exact ⟨next_dated (t := ⟨_, o⟩) ht hd hpos, (turn_change (t := ⟨_, o⟩) ht hd).threshold.trans hthreshold⟩

theorem run_change (threshold : UInt32) (reset : Duration) (ops : List (Op κ)) (o : Op κ) :
    Change ⟨run threshold reset ops, o⟩ (step (run threshold reset ops) o).breaker :=
  turn_change (t := ⟨_, o⟩) (run_trialInv threshold reset ops) (run_dated threshold reset ops).1

/-- **The epoch counts the openings.** -/
theorem run_epoch (threshold : UInt32) (reset : Duration) (ops : List (Op κ)) :
    (run threshold reset ops).breaker.epoch = (history threshold reset ops).countP Turn.opens := by
  induction ops using List.reverseRecOn with
  | nil => rfl
  | append_singleton ops o ih =>
    rw [run_snoc, history_snoc, List.countP_append, ← ih, List.countP_singleton]
    rcases (run_change threshold reset ops o).epoch with ⟨hsame, -, hstays⟩ | ⟨hnew, ho, hbefore⟩
    · have hnot : Turn.opens ⟨run threshold reset ops, o⟩ = false := by
        by_contra h
        simp only [Turn.opens, Turn.next, Bool.not_eq_false, Bool.and_eq_true, bne_iff_ne, ne_eq, beq_iff_eq] at h
        exact h.1 (hstays h.2)
      rw [hsame, hnot]
      rfl
    · have hopens : Turn.opens ⟨run threshold reset ops, o⟩ = true := by
        simp [Turn.opens, Turn.next, ho, hbefore]
      rw [hnew, hopens]
      rfl

theorem run_epoch_append (threshold : UInt32) (reset : Duration) (before after : List (Op κ)) :
    (run threshold reset (before ++ after)).breaker.epoch =
      (run threshold reset before).breaker.epoch + (turns (run threshold reset before) after).countP Turn.opens := by
  rw [run_epoch, run_epoch, history, turns_append, List.countP_append]
  rfl

end Foreman.Breaker

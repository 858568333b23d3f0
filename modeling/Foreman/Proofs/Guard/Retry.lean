/-
The attempt that decides.

Attempts go on until one of them settles the matter or none is left. Which one that is (`deciding`) can be told from the
outcomes alone, and a series comes out as that attempt did, unless it breaks down on the way. It does so after the first
attempt whose error asks for a wait that cannot be told (`stuck`): with jitter, where the range of the draw has no finite
width. So what ends a series is the attempt that decides or an earlier one that is stuck (`ending`).

A series on a thread that sleeps and an execution that gives way both go by it: they make one call for each attempt up to
the last one, and between two calls they wait for as long as the error of the first one asks for. They number no attempt
beyond the last one that may be made, so that the number fits wherever the setting for it does.

Results:
- `goes_on`, `stops_at`: which attempts would be followed by another one.
- `isSome_backoff`:      which waits can be told.
- `runFrom_ending`:      how a series comes out, from any attempt up to the one that ends it.
- `after_calling`, `after_resting`, `after_closed`: where an execution stands after any number of things told to it.
- `series_decided`:      the two come out alike, and when they come out as the attempt that decides does.
- `series_breaks`:       a series that breaks down after its first attempt.
-/
import Mathlib.Tactic
import Foreman.Guard.Retry

namespace Foreman.Retry

variable {α : Type}

/-! ## Which attempt decides -/

/-- an outcome after which there is no other attempt, however many are left -/
def settles (c : Classifier) : Except GuardError α → Bool
  | .ok _ => true
  | .error (.call e) => !c e
  | .error e => e.isExhaustion

theorem settles_eq_false {c : Classifier} {o : Except GuardError α} :
    settles c o = false ↔ ∃ e, o = .error (.call e) ∧ c e = true := by
  rcases o with (_ | _ | _ | e) | a <;> simp [settles, GuardError.isExhaustion]

section Series

variable (r : RetrySettings) (c : Classifier) (outcome : Nat → Except GuardError α)

theorem exists_deciding : ∃ k, settles c (outcome k) = true ∨ k = attempts r - 1 := ⟨_, .inr rfl⟩

/-- the first attempt that settles the matter, or the last one that may be made -/
def deciding : Nat := Nat.find (exists_deciding r c outcome)

theorem deciding_lt : deciding r c outcome < attempts r := by
  have hle : deciding r c outcome ≤ attempts r - 1 := Nat.find_min' (exists_deciding r c outcome) (.inr rfl)
  have hone : 1 ≤ attempts r := le_max_right _ _
  omega

variable {r c outcome}

theorem goes_on {i : Nat} (h : i < deciding r c outcome) :
    ∃ e, outcome i = .error (.call e) ∧ again r c i e = true := by
  have hnot := Nat.find_min (exists_deciding r c outcome) h
  rw [not_or, Bool.not_eq_true, settles_eq_false] at hnot
  obtain ⟨⟨e, ho, hc⟩, -⟩ := hnot
  have hlt := deciding_lt r c outcome
  exact ⟨e, ho, by simpa [again, hc] using (show i + 1 < attempts r by omega)⟩

theorem stops_at {e : CallError} (h : outcome (deciding r c outcome) = .error (.call e)) :
    again r c (deciding r c outcome) e = false := by
  rcases Nat.find_spec (exists_deciding r c outcome) with hsettles | hlast
  · have hc : c e = false := by
      rw [show Nat.find (exists_deciding r c outcome) = deciding r c outcome from rfl, h] at hsettles
      simpa [settles] using hsettles
    simp [again, hc]
  · have hlast : deciding r c outcome = attempts r - 1 := hlast
    have hnone : ¬deciding r c outcome + 1 < attempts r := by omega
    simp [again, hnone]

/-! ## Which attempt ends a series -/

/-- whether the wait after an attempt can be told: the called side asks for it, there is no jitter, or there is a range to
draw from -/
def canWait (r : RetrySettings) (attempt : Nat) : CallError → Bool
  | .throttled _ => true
  | _ => !hasJitter r || (rangeEnd r attempt).hasDouble

theorem isSome_backoff (r : RetrySettings) (attempt : Nat) (e : CallError) (offset : Rat) :
    (backoff r attempt e offset).isSome = canWait r attempt e := by
  cases e with
  | throttled ms => rfl
  | _ =>
    simp only [backoff, canWait]
    cases hasJitter r <;> cases (rangeEnd r attempt).hasDouble <;> rfl

variable (r c outcome)

/-- the error of an attempt asks for a wait that cannot be told -/
def stuck (i : Nat) : Bool :=
  match outcome i with
  | .error (.call e) => !canWait r i e
  | _ => false

theorem exists_ending : ∃ k, k = deciding r c outcome ∨ stuck r outcome k = true := ⟨_, .inl rfl⟩

/-- the attempt that decides, or the first one before it that is stuck -/
def ending : Nat := Nat.find (exists_ending r c outcome)

theorem ending_le : ending r c outcome ≤ deciding r c outcome := Nat.find_min' (exists_ending r c outcome) (.inl rfl)

/-- how a series comes out -/
def result? : Option (Except GuardError α) :=
  if ending r c outcome = deciding r c outcome then some (outcome (deciding r c outcome)) else none

variable {r c outcome}

theorem ending_of_free {j : Nat} (hj : j = deciding r c outcome ∨ stuck r outcome j = true)
    (hle : j ≤ deciding r c outcome) (hfree : ∀ i < j, stuck r outcome i = false) : ending r c outcome = j := by
  refine (Nat.find_eq_iff _).2 ⟨hj, fun i hi h => ?_⟩
  rcases h with rfl | h
  · exact absurd hi (Nat.not_lt.2 hle)
  · exact absurd h (by simp [hfree i hi])

theorem ending_eq_deciding_iff :
    ending r c outcome = deciding r c outcome ↔ ∀ i < deciding r c outcome, stuck r outcome i = false := by
  refine ⟨fun h i hi => ?_, ending_of_free (.inl rfl) le_rfl⟩
  have hnot := Nat.find_min (exists_ending r c outcome) (m := i) (h.symm ▸ hi : i < ending r c outcome)
  simpa using (not_or.1 hnot).2

theorem le_ending {n : Nat} (hn : n ≤ deciding r c outcome) (hfree : ∀ i < n, stuck r outcome i = false) :
    n ≤ ending r c outcome := by
  refine (Nat.le_find_iff _ _).2 fun i hi => not_or.2 ⟨?_, by simp [hfree i hi]⟩
  omega

/-- an attempt before the one that ends the series is followed by another one, after a wait -/
theorem rests {i : Nat} (h : i < ending r c outcome) (offset : Rat) :
    ∃ e ms, outcome i = .error (.call e) ∧ again r c i e = true ∧ backoff r i e offset = some ms := by
  obtain ⟨e, ho, hagain⟩ := goes_on (h.trans_le (ending_le r c outcome))
  have hfree : stuck r outcome i = false := by
    simpa using (not_or.1 (Nat.find_min (exists_ending r c outcome) h)).2
  have hwait : (backoff r i e offset).isSome = true := by
    simpa [stuck, ho, isSome_backoff] using hfree
  obtain ⟨ms, hms⟩ := Option.isSome_iff_exists.1 hwait
  exact ⟨e, ms, ho, hagain, hms⟩

/-- where a series ends before the attempt that decides, there is a wait that cannot be told -/
theorem breaks (h : ending r c outcome ≠ deciding r c outcome) (offset : Rat) :
    ∃ e, outcome (ending r c outcome) = .error (.call e) ∧ again r c (ending r c outcome) e = true ∧
      backoff r (ending r c outcome) e offset = none := by
  obtain ⟨e, ho, hagain⟩ := goes_on ((ending_le r c outcome).lt_of_ne h)
  have hstuck : stuck r outcome (ending r c outcome) = true :=
    (Nat.find_spec (exists_ending r c outcome)).resolve_left h
  refine ⟨e, ho, hagain, ?_⟩
  simp only [stuck, ho, ← isSome_backoff r _ e offset] at hstuck
  simpa using hstuck

/-! ## On a thread that sleeps -/

variable (r c outcome) (offset : Nat → Rat)

/-- the wait after an attempt, if it is followed by another one -/
def rest (i : Nat) : Nat :=
  match outcome i with
  | .error (.call e) => (backoff r i e (offset i)).getD 0
  | _ => 0

theorem runFrom_goes_on {i : Nat} (h : i < ending r c outcome) (retries : Nat) :
    runFrom r c outcome offset i retries =
      { runFrom r c outcome offset (i + 1) (retries + 1) with
        calls := (runFrom r c outcome offset (i + 1) (retries + 1)).calls + 1
        waits := rest r outcome offset i :: (runFrom r c outcome offset (i + 1) (retries + 1)).waits } := by
  obtain ⟨e, ms, ho, hagain, hms⟩ := rests h (offset i)
  rw [runFrom, rest, ho]
  simp [hagain, hms]

theorem runFrom_stops (retries : Nat) :
    runFrom r c outcome offset (ending r c outcome) retries = ⟨result? r c outcome, 1, [], retries⟩ := by
  by_cases hlast : ending r c outcome = deciding r c outcome
  · rw [result?, if_pos hlast, hlast, runFrom]
    split
    · rename_i e ho
      simp [stops_at ho, ho]
    · rfl
  · obtain ⟨e, ho, hagain, hnone⟩ := breaks hlast (offset (ending r c outcome))
    rw [result?, if_neg hlast, runFrom, ho]
    simp [hagain, hnone]

/-- **A series from any attempt on**, up to the one that ends it. -/
theorem runFrom_ending {i : Nat} (hi : i ≤ ending r c outcome) (retries : Nat) :
    runFrom r c outcome offset i retries =
      { result := result? r c outcome
        calls := ending r c outcome - i + 1
        waits := (List.range' i (ending r c outcome - i)).map (rest r outcome offset)
        retries := retries + (ending r c outcome - i) } := by
  obtain ⟨n, hn⟩ : ∃ n, ending r c outcome - i = n := ⟨_, rfl⟩
  induction n generalizing i retries with
  | zero =>
    obtain rfl : i = ending r c outcome := by omega
    rw [runFrom_stops, hn]
    rfl
  | succ n ih =>
    rw [runFrom_goes_on r c outcome offset (by omega) retries, ih (by omega) _ (by omega), hn,
      show ending r c outcome - (i + 1) = n by omega]
    simp [List.range'_succ, Nat.add_assoc, Nat.add_comm 1]

/-! ## In an execution that gives way -/

open Execution

/-- an execution after it has been told so many things -/
def after (retries : Nat) : Nat → Execution α
  | 0 => start retries
  | n + 1 => (after retries n).next r c outcome offset

/-- where an execution stands after the attempt that ends it -/
def closing : Stage α :=
  match result? r c outcome with
  | some result => .ended result
  | none => .broken

theorem next_goes_on {i : Nat} (h : i < ending r c outcome) (calls retries : Nat) (waits : List Nat) :
    Execution.next r c outcome offset ⟨i, .calling, calls, waits, retries⟩ =
      ⟨i, .resting (rest r outcome offset i), calls, waits ++ [rest r outcome offset i], retries + 1⟩ := by
  obtain ⟨e, ms, ho, hagain, hms⟩ := rests h (offset i)
  simp [Execution.next, returned, rest, ho, hagain, hms]

theorem next_stops (calls retries : Nat) (waits : List Nat) :
    Execution.next r c outcome offset ⟨ending r c outcome, .calling, calls, waits, retries⟩ =
      ⟨ending r c outcome, closing r c outcome, calls, waits, retries⟩ := by
  by_cases hlast : ending r c outcome = deciding r c outcome
  · rw [closing, result?, if_pos hlast, hlast]
    simp only [Execution.next, returned]
    split
    · rename_i e ho
      simp [stops_at ho, ho]
    · rfl
  · obtain ⟨e, ho, hagain, hnone⟩ := breaks hlast (offset (ending r c outcome))
    rw [closing, result?, if_neg hlast]
    simp [Execution.next, returned, ho, hagain, hnone]

/-- **Before each attempt**, up to the one that ends it -/
theorem after_calling (retries : Nat) {i : Nat} (hi : i ≤ ending r c outcome) :
    after r c outcome offset retries (2 * i) =
      ⟨i, .calling, i + 1, (List.range i).map (rest r outcome offset), retries + i⟩ := by
  induction i with
  | zero => rfl
  | succ i ih =>
    rw [show 2 * (i + 1) = 2 * i + 1 + 1 by omega, after, after, ih (by omega), next_goes_on _ _ _ _ (by omega)]
    simp [Execution.next, rested, List.range_succ, Nat.add_assoc]

/-- **Between two attempts** -/
theorem after_resting (retries : Nat) {i : Nat} (hi : i < ending r c outcome) :
    after r c outcome offset retries (2 * i + 1) =
      ⟨i, .resting (rest r outcome offset i), i + 1, (List.range (i + 1)).map (rest r outcome offset),
        retries + (i + 1)⟩ := by
  rw [after, after_calling _ _ _ _ _ (by omega), next_goes_on _ _ _ _ hi, List.range_succ]
  simp [Nat.add_assoc]

/-- **After the attempt that ends it** nothing happens any more. -/
theorem after_closed (retries : Nat) {n : Nat} (hn : 2 * ending r c outcome + 1 ≤ n) :
    after r c outcome offset retries n =
      ⟨ending r c outcome, closing r c outcome, ending r c outcome + 1,
        (List.range (ending r c outcome)).map (rest r outcome offset), retries + ending r c outcome⟩ := by
  induction n, hn using Nat.le_induction with
  | base => rw [after, after_calling _ _ _ _ _ le_rfl, next_stops]
  | succ n hn ih =>
    rw [after, ih, closing]
    cases result? r c outcome <;> rfl

/-- an execution is making an attempt, or rests after one, or has ended -/
theorem told_cases (k n : Nat) : (∃ i ≤ k, n = 2 * i) ∨ (∃ i < k, n = 2 * i + 1) ∨ 2 * k + 1 ≤ n := by
  by_cases hn : 2 * k + 1 ≤ n
  · exact .inr (.inr hn)
  · rcases Nat.even_or_odd' n with ⟨i, rfl | rfl⟩
    · exact .inl ⟨i, by omega, rfl⟩
    · exact .inr (.inl ⟨i, by omega, rfl⟩)

theorem after_report? (retries n : Nat) :
    (after r c outcome offset retries n).report? =
      if n ≤ 2 * ending r c outcome then none
      else some ⟨result? r c outcome, ending r c outcome + 1,
        (List.range (ending r c outcome)).map (rest r outcome offset), retries + ending r c outcome⟩ := by
  rcases told_cases (ending r c outcome) n with ⟨i, hi, rfl⟩ | ⟨i, hi, rfl⟩ | hn
  · rw [after_calling _ _ _ _ _ hi, if_pos (by omega)]
    rfl
  · rw [after_resting _ _ _ _ _ hi, if_pos (by omega)]
    rfl
  · rw [after_closed _ _ _ _ _ hn, if_neg (by omega), closing]
    cases result? r c outcome <;> rfl

theorem after_attempt_le (retries n : Nat) : (after r c outcome offset retries n).attempt ≤ ending r c outcome := by
  rcases told_cases (ending r c outcome) n with ⟨i, hi, rfl⟩ | ⟨i, hi, rfl⟩ | hn
  · rw [after_calling _ _ _ _ _ hi]
    exact hi
  · rw [after_resting _ _ _ _ _ hi]
    exact hi.le
  · rw [after_closed _ _ _ _ _ hn]

end Series

/-! ## Both -/

/-- a series whose last attempt is the `j`-th one, before which `retries` further attempts were made by others: it made a
call for each attempt, one attempt after the other, and waited in between for as long as each error asks for -/
structure CameOut (r : RetrySettings) (outcome : Nat → Except GuardError α) (offset : Nat → Rat) (retries j : Nat)
    (result : Option (Except GuardError α)) (report : Report α) : Prop where
  result : report.result = result
  calls : report.calls = j + 1
  retries : report.retries = retries + j
  length : report.waits.length = j
  waits : ∀ i < j, ∃ e ms, outcome i = .error (.call e) ∧ backoff r i e (offset i) = some ms ∧
    report.waits[i]? = some ms

/-- **When a series comes out as it should.** It comes out as the attempt that decides does, after one call for each
attempt up to it, exactly if no attempt before that one is stuck. Else it breaks down after the first one that is, and has
no result. An execution comes out as the series does, and rests for as long. -/
theorem series_decided (r : RetrySettings) (c : Classifier) (outcome : Nat → Except GuardError α) (offset : Nat → Rat)
    (retries : Nat) :
    let k := deciding r c outcome
    let report := run r c outcome offset retries
    let told := after r c outcome offset retries
    (CameOut r outcome offset retries k (some (outcome k)) report ↔ ∀ i < k, stuck r outcome i = false) ∧
      (∀ j < k, stuck r outcome j = true → (∀ i < j, stuck r outcome i = false) →
        CameOut r outcome offset retries j none report) ∧
      (∀ i, i + 1 < report.calls → ∃ ms, report.waits[i]? = some ms ∧ (told (2 * i + 1)).stage = .resting ms) ∧
      (∀ n, (told n).report? = if n + 2 ≤ 2 * report.calls then none else some report) ∧
      report.calls ≤ max r.maxAttempts 1 ∧ ∀ n, (told n).attempt + 1 ≤ max r.maxAttempts 1 := by
  intro k report told
  have hle : ending r c outcome ≤ k := ending_le r c outcome
  have hlast : k + 1 ≤ max r.maxAttempts 1 := deciding_lt r c outcome
  have hreport : report = ⟨result? r c outcome, ending r c outcome + 1,
      (List.range (ending r c outcome)).map (rest r outcome offset), retries + ending r c outcome⟩ := by
    simp only [report, run, runFrom_ending r c outcome offset (Nat.zero_le _), Nat.sub_zero, List.range_eq_range']
  have hout : CameOut r outcome offset retries (ending r c outcome) (result? r c outcome) report := by
    refine ⟨by rw [hreport], by rw [hreport], by rw [hreport], by simp [hreport], fun i hi => ?_⟩
    obtain ⟨e, ms, ho, -, hms⟩ := rests hi (offset i)
    exact ⟨e, ms, ho, hms, by simp [hreport, hi, rest, ho, hms]⟩
  refine ⟨⟨fun h => ?_, fun hfree => ?_⟩, fun j hj hstuck hfree => ?_, fun i hi => ?_, fun n => ?_, ?_, fun n => ?_⟩
  · -- a series that made the calls up to the attempt that decides has met no stuck one
    have hcalls := hout.calls.symm.trans h.calls
    exact ending_eq_deciding_iff.1 (Nat.succ.inj hcalls)
  · have hend : ending r c outcome = k := ending_eq_deciding_iff.2 hfree
    rwa [result?, if_pos hend, hend] at hout
  · have hend : ending r c outcome = j := ending_of_free (.inr hstuck) hj.le hfree
    rwa [result?, if_neg (by rw [hend]; exact hj.ne), hend] at hout
  · rw [hout.calls] at hi
    have hi : i < ending r c outcome := Nat.lt_of_succ_lt_succ hi
    refine ⟨rest r outcome offset i, by simp [hreport, hi], ?_⟩
    rw [show told (2 * i + 1) = _ from after_resting r c outcome offset retries hi]
  · rw [hout.calls, hreport]
    refine (after_report? r c outcome offset retries n).trans ?_
    congr 1
    exact propext (by omega)
  · rw [hout.calls]
    omega
  · calc
      (told n).attempt + 1 ≤ ending r c outcome + 1 := Nat.succ_le_succ (after_attempt_le r c outcome offset retries n)
      _ ≤ max r.maxAttempts 1 := by omega

/-- a second at most, and a factor for jitter that takes the range of the draw beyond all finite numbers -/
def wildJitter : RetrySettings := ⟨2, 1000, 1000, .ofDecimal false 1 308⟩

/-- **A series that breaks down**: the first attempt fails for a passing reason, the second one would decide, and it is
never made. -/
theorem series_breaks :
    let outcome : Nat → Except GuardError Unit := fun _ => .error (.call (.transport "reset"))
    let report := run wildJitter .standard outcome (fun _ => 0) 0
    deciding wildJitter .standard outcome = 1 ∧ report.result.isNone = true ∧ report.calls = 1 ∧ report.retries = 0 := by
  intro outcome report
  refine ⟨(Nat.find_eq_iff _).2 ⟨.inr rfl, fun n hn => ?_⟩, ?_⟩
  · obtain rfl : n = 0 := Nat.lt_one_iff.1 hn
    simp [outcome, settles, Classifier.standard, attempts, wildJitter]
  · have hnone : backoff wildJitter 0 (.transport "reset") 0 = none := by decide +kernel
    have hagain : again wildJitter .standard 0 (.transport "reset") = true := by decide +kernel
    have hreport : report = ⟨none, 1, [], 0⟩ := by
      rw [show report = runFrom wildJitter .standard outcome (fun _ => 0) 0 0 from rfl, runFrom]
      simp [outcome, hagain, hnone]
    rw [hreport]
    exact ⟨rfl, rfl, rfl⟩

end Foreman.Retry

/-
The tokens of a guarded resource, and the starts that they pay for.

An attempt takes a token before it asks for a slot, and starts only with a slot. Whatever comes between, a start uses up the
token of its own attempt, so starts never outnumber tokens; the calls that have a token and have not started stand between
the two (`Accounts`). Attempts that are dropped or wait too long keep starts below tokens for good. Where nothing fills the
bucket, the tokens that were taken and those that are left make up its capacity (`Drained`).

Results:
- `run_owned`:    each call that has a token took it in an earlier turn, for this attempt, and has not used it.
- `run_accounts`: starts and tokens are counted right, and starts never outnumber tokens.
- `run_drained`:  a bucket that nothing fills gives no more tokens than its capacity.
-/
import Foreman.Proofs.Guard.Bucket
import Foreman.Proofs.Guard.Places

namespace Foreman.Guard

variable {κ : Type} [DecidableEq κ] {g : Guard κ} {t : Turn κ} {past : List (Turn κ)} {j k : κ} {p : Permit} {n : Nat}
  {c c' : GuardedCall}

/-! ## Whose token it is -/

/-- attempt `n` of the call with permit `p` took a token in one of these turns, and has waited ever since -/
def Paid (past : List (Turn κ)) (k : κ) (p : Permit) (n : Nat) : Prop :=
  ∃ before t after, past = before ++ t :: after ∧ t.pays? = some k ∧ t.guard.call? k = some ⟨p, n, .admitted⟩ ∧
    ∀ u ∈ after, u.starts? ≠ some k ∧ ∃ phase, u.guard.call? k = some ⟨p, n, phase⟩ ∧ phase.tokened = true

/-- a token is still there after a turn in which its call does not start -/
theorem Paid.snoc (h : Paid past k p n) {phase : CallPhase} (hc : t.guard.call? k = some ⟨p, n, phase⟩)
    (htokened : phase.tokened = true) (hs : t.starts? ≠ some k) : Paid (past ++ [t]) k p n := by
  obtain ⟨before, u, after, rfl, hp, hu, hafter⟩ := h
  refine ⟨before, u, after ++ [t], by simp, hp, hu, fun v hv => ?_⟩
  rcases List.mem_append.1 hv with hv | hv
  · exact hafter v hv
  · rw [List.mem_singleton.1 hv]
    exact ⟨hs, phase, hc, htokened⟩

/-- each call that has a token took it for the attempt that it is about to start -/
def Owned (past : List (Turn κ)) (g : Guard κ) : Prop :=
  ∀ k p n phase, g.call? k = some ⟨p, n, phase⟩ → phase.tokened = true → Paid past k p n

/-- **A call with a token** has taken it in this turn or had it before. -/
theorem Change.tokened (ht : Change t g) {phase : CallPhase} (hc : g.call? j = some ⟨p, n, phase⟩)
    (htokened : phase.tokened = true) :
    (t.pays? = some j ∧ t.guard.call? j = some ⟨p, n, .admitted⟩) ∨
    (t.starts? ≠ some j ∧ ∃ phase, t.guard.call? j = some ⟨p, n, phase⟩ ∧ phase.tokened = true) := by
  have hother : t.starts? ≠ some j → t.guard.call? j = some ⟨p, n, phase⟩ →
      t.starts? ≠ some j ∧ ∃ phase, t.guard.call? j = some ⟨p, n, phase⟩ ∧ phase.tokened = true :=
    fun hs hc => ⟨hs, phase, hc, htokened⟩
  cases ht with
  | idle hp hs => exact .inr (hother (by simp [hs]) hc)
  | entered k q b hnew hp hs =>
    rcases enter_some hnew hc with ⟨rfl, he⟩ | ⟨-, hc⟩
    · cases he
      cases htokened
    · exact .inr (hother (by simp [hs]) hc)
  | paid k q m now l hk hl hp hs =>
    rcases setCall_some hc with ⟨rfl, he⟩ | ⟨-, hc⟩
    · cases he
      exact .inl ⟨hp, hk⟩
    · exact .inr (hother (by simp [hs]) hc)
  | asked k q m hk hp hs =>
    rcases setCall_some hc with ⟨rfl, he⟩ | ⟨-, hc⟩
    · cases he
      exact .inr ⟨by simp [hs], .paid, hk, rfl⟩
    · exact .inr (hother (by simp [hs]) hc)
  | started k q m hk hmem hp hs =>
    rcases setCall_some hc with ⟨rfl, he⟩ | ⟨hjk, hc⟩
    · cases he
      cases htokened
    · exact .inr (hother (by simpa [hs] using hjk.symm) hc)
  | moved k d d' l r hk hl he hi ht ht' hr hp hs =>
    rcases setCall_some hc with ⟨rfl, rfl⟩ | ⟨-, hc⟩
    · exact absurd htokened (by simp [ht'])
    · exact .inr (hother (by simp [hs]) hc)
  | vacated k d d' hk he ht' hr hp hs =>
    rcases setCall_some hc with ⟨rfl, rfl⟩ | ⟨-, hc⟩
    · exact absurd htokened (by simp [ht'])
    · exact .inr (hother (by simp [hs]) hc)
  | ended k d b hk he ht' hp hs => exact .inr (hother (by simp [hs]) (dropCall_some hc).2)

theorem Owned.turn (h : Owned past t.guard) : Owned (past ++ [t]) t.next := by
  intro k p n phase hc htokened
  rcases (turn_change t).tokened hc htokened with ⟨hp, hc⟩ | ⟨hs, phase, hc, htokened⟩
  · exact ⟨past, t, [], rfl, hp, hc, fun u hu => by cases hu⟩
  · exact (h k p n phase hc htokened).snoc hc htokened hs

theorem run_owned (hnone : g.calls = []) (es : List (Event κ)) : Owned (g.turns es) (g.runFrom es) := by
  induction es using List.reverseRecOn with
  | nil =>
    intro k p n phase hc
    simp [runFrom, call?, hnone] at hc
  | append_singleton es e ih =>
    rw [turns_snoc, runFrom_snoc]
    exact Owned.turn (t := ⟨g.runFrom es, e⟩) ih

/-! ## How many there are -/

/-- how many calls have a token and have not started -/
def owed (g : Guard κ) : Nat := g.calls.countP fun p => p.2.phase.tokened

theorem owed_setCall (hkeys : (g.calls.map Prod.fst).Nodup) (hc : g.call? k = some c) (c' : GuardedCall) :
    ((g.setCall k c').owed + if c.phase.tokened then 1 else 0) = g.owed + if c'.phase.tokened then 1 else 0 :=
  Keyed.countP_replace hkeys hc (fun c => c.phase.tokened) c'

theorem owed_dropCall (g : Guard κ) (k : κ) : (g.dropCall k).owed ≤ g.owed :=
  List.filter_sublist.countP_le

/-- tokens and starts are counted right, and each start has had its token -/
structure Accounts (past : List (Turn κ)) (g : Guard κ) : Prop where
  debits : g.debits = past.countP fun t => t.pays?.isSome
  invocations : g.invocations = past.countP fun t => t.starts?.isSome
  covered : g.invocations + g.owed ≤ g.debits

theorem Accounts.snoc (h : Accounts past t.guard) (paid started : Nat)
    (hpaid : paid = if t.pays?.isSome then 1 else 0) (hstarted : started = if t.starts?.isSome then 1 else 0)
    (hdebits : g.debits = t.guard.debits + paid) (hinvocations : g.invocations = t.guard.invocations + started)
    (howed : g.owed + started ≤ t.guard.owed + paid) : Accounts (past ++ [t]) g := by
  refine ⟨?_, ?_, ?_⟩
  · rw [hdebits, h.debits, hpaid, List.countP_append, List.countP_singleton]
  · rw [hinvocations, h.invocations, hstarted, List.countP_append, List.countP_singleton]
  · have hcovered := h.covered
    omega

theorem Change.accounts (h : Accounts past t.guard) (hkeys : (t.guard.calls.map Prod.fst).Nodup) (ht : Change t g) :
    Accounts (past ++ [t]) g := by
  cases ht with
  | idle hp hs => exact h.snoc 0 0 (by simp [hp]) (by simp [hs]) rfl rfl le_rfl
  | entered k p b hnew hp hs =>
    refine h.snoc 0 0 (by simp [hp]) (by simp [hs]) rfl rfl ?_
    simp [owed, Guard.enter, CallPhase.tokened]
  | paid k p n now l hc hl hp hs =>
    have howed := owed_setCall hkeys hc ⟨p, n, .paid⟩
    exact h.snoc 1 0 (by simp [hp]) (by simp [hs]) rfl rfl howed.le
  | asked k p n hc hp hs =>
    have howed := owed_setCall hkeys hc ⟨p, n, .waiting⟩
    exact h.snoc 0 0 (by simp [hp]) (by simp [hs]) rfl rfl (Nat.add_right_cancel howed).le
  | started k p n hc hmem hp hs =>
    have howed := owed_setCall hkeys hc ⟨p, n, .running⟩
    exact h.snoc 0 1 (by simp [hp]) (by simp [hs]) rfl rfl howed.le
  | moved k c c' l r hc hl he hi ht ht' hr hp hs =>
    have howed := owed_setCall hkeys hc c'
    rw [ht, ht'] at howed
    exact h.snoc 0 0 (by simp [hp]) (by simp [hs]) rfl rfl howed.le
  | vacated k c c' hc he ht' hr hp hs =>
    have howed := owed_setCall hkeys hc c'
    rw [ht'] at howed
    exact h.snoc 0 0 (by simp [hp]) (by simp [hs]) rfl rfl ((Nat.le_add_right _ _).trans howed.le)
  | ended k c b hc he ht' hp hs =>
    exact h.snoc 0 0 (by simp [hp]) (by simp [hs]) rfl rfl (owed_dropCall t.guard k)

/-- **Starts never outnumber tokens.** -/
theorem run_accounts {slots : Nat} (hplaced : Placed slots g) (h : Accounts [] g) (es : List (Event κ)) :
    Accounts (g.turns es) (g.runFrom es) := by
  induction es using List.reverseRecOn with
  | nil => exact h
  | append_singleton es e ih =>
    rw [turns_snoc, runFrom_snoc]
    exact (turn_change ⟨g.runFrom es, e⟩).accounts ih (run_placed hplaced es).keys

/-! ## Where nothing fills the bucket -/

/-- a bucket that nothing fills: what was taken and what is left make up its capacity -/
structure Drained (capacity : Nat) (g : Guard κ) : Prop where
  rate : g.limiter.rate = .perSecond 0
  size : g.limiter.capacity = capacity
  left : 0 ≤ g.limiter.tokens
  sum : g.limiter.tokens + g.debits = capacity

omit [DecidableEq κ] in
theorem Drained.debits_le {capacity : Nat} (h : Drained capacity g) : g.debits ≤ capacity := by
  have hle : (g.debits : Rat) ≤ capacity := by
    rw [← h.sum]
    exact le_add_of_nonneg_left h.left
  exact_mod_cast hle

omit [DecidableEq κ] in
theorem Drained.sound {capacity : Nat} (h : Drained capacity g) : Limiter.Sound capacity 0 g.limiter :=
  ⟨h.size, h.rate, le_rfl, h.left, h.sum ▸ le_add_of_nonneg_right (Nat.cast_nonneg _)⟩

omit [DecidableEq κ] in
theorem Drained.request {capacity now : Nat} {l : Limiter} {granted : Bool} {g' : Guard κ} (h : Drained capacity g)
    (hl : g.limiter.take 1 now = (l, granted)) (hlimiter : g'.limiter = l)
    (hdebits : g'.debits = g.debits + if granted then 1 else 0) : Drained capacity g' := by
  have hstep : g.limiter.step (.take 1 now) = (l, if granted then 1 else 0) := by rw [Limiter.step, hl]
  have hsound := h.sound.step (.take 1 now)
  have hbalance := h.sound.balance_unfilled (.take 1 now)
  rw [hstep] at hsound hbalance
  refine ⟨hlimiter ▸ hsound.rate, hlimiter ▸ hsound.size, hlimiter ▸ hsound.low, ?_⟩
  rw [hlimiter, hdebits, ← h.sum, ← hbalance, Nat.cast_add]
  ring

theorem Change.drained {capacity : Nat} (h : Drained capacity t.guard) (ht : Change t g) : Drained capacity g := by
  have hkeep : ∀ g' : Guard κ, g'.limiter = t.guard.limiter → g'.debits = t.guard.debits → Drained capacity g' := by
    intro g' hl hd
    exact ⟨hl ▸ h.rate, hl ▸ h.size, hl ▸ h.left, by rw [hl, hd]; exact h.sum⟩
  cases ht with
  | paid k p n now l hc hl => exact h.request hl rfl rfl
  | moved k c c' l r hc hl =>
    rcases hl with rfl | ⟨now, hl⟩
    · exact hkeep _ rfl rfl
    · exact h.request hl rfl rfl
  | _ => exact hkeep _ rfl rfl

/-- **A bucket that nothing fills** gives no more tokens than its capacity. -/
theorem run_drained {capacity : Nat} (h : Drained capacity g) (es : List (Event κ)) : Drained capacity (g.runFrom es) := by
  induction es using List.reverseRecOn with
  | nil => exact h
  | append_singleton es e ih =>
    rw [runFrom_snoc]
    exact (turn_change ⟨g.runFrom es, e⟩).drained ih

end Foreman.Guard

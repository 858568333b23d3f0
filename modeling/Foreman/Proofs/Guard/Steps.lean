/-
What one step does to the guard of a resource.

Calls come between each other anywhere, and a call touches breaker, limiter and slots in steps of their own. A run is
looked at turn by turn: the guard that a step meets, and the step. All that a turn can do is said once (`turn_change`);
what holds of a run is read off that. A turn changes one call, but for the slot that goes to the first in line when
another one gives it back.

Results:
- `setCall_some`, `dropCall_some`, `enter_some`: where a call comes from.
- `turn_change`: all that a turn can do.
-/
import Mathlib.Tactic
import Foreman.Guard.Stack
import Foreman.Proofs.Keyed

namespace Foreman

/-! ## Phases of a call -/

namespace CallPhase

/-- it has a slot or a place in line -/
def engaged : CallPhase → Bool
  | .waiting | .running | .returned _ => true
  | _ => false

/-- it has been given a slot and has not given it back -/
def inside : CallPhase → Bool
  | .running | .returned _ => true
  | _ => false

/-- it has a token for a start that is still to come -/
def tokened : CallPhase → Bool
  | .paid | .waiting => true
  | _ => false

/-- its attempt is over as if the breaker had refused it, which only a call can be that never came in -/
def refused : CallPhase → Bool
  | .over (some (.circuitOpen _ _)) => true
  | _ => false

end CallPhase

namespace Guard

variable {κ : Type} [DecidableEq κ]

/-! ## Calls under their keys -/

theorem call?_of_any {g : Guard κ} {k : κ} {phase : CallPhase}
    (h : (g.call? k).any (fun c => c.phase = phase) = true) : ∃ p n, g.call? k = some ⟨p, n, phase⟩ := by
  obtain ⟨⟨p, n, q⟩, hc, hq⟩ := (Option.any_eq_true _ _).1 h
  have hq : q = phase := by simpa using hq
  exact ⟨p, n, hq ▸ hc⟩

theorem call?_setCall (g : Guard κ) (k j : κ) (c : GuardedCall) :
    (g.setCall k c).call? j = if j = k then (g.call? k).map fun _ => c else g.call? j :=
  Keyed.lookup_replace g.calls k j c

theorem call?_dropCall (g : Guard κ) (k j : κ) : (g.dropCall k).call? j = if j = k then none else g.call? j :=
  Keyed.lookup_remove g.calls k j

def enter (g : Guard κ) (k : κ) (c : GuardedCall) (b : Breaker) : Guard κ :=
  { g with breaker := b, calls := g.calls ++ [(k, c)] }

theorem call?_enter {g : Guard κ} {k : κ} (hnew : g.call? k = none) (c : GuardedCall) (b : Breaker) (j : κ) :
    (g.enter k c b).call? j = if j = k then some c else g.call? j :=
  Keyed.lookup_concat hnew c j

theorem setCall_some {g : Guard κ} {k j : κ} {c d : GuardedCall} (h : (g.setCall k c).call? j = some d) :
    j = k ∧ d = c ∨ j ≠ k ∧ g.call? j = some d := by
  rw [call?_setCall] at h
  split_ifs at h with hj
  · obtain ⟨_, _, rfl⟩ := Option.map_eq_some_iff.1 h
    exact .inl ⟨hj, rfl⟩
  · exact .inr ⟨hj, h⟩

theorem enter_some {g : Guard κ} {k j : κ} {c d : GuardedCall} {b : Breaker} (hnew : g.call? k = none)
    (h : (g.enter k c b).call? j = some d) : j = k ∧ d = c ∨ j ≠ k ∧ g.call? j = some d := by
  rw [call?_enter hnew] at h
  split_ifs at h with hj
  · exact .inl ⟨hj, (Option.some.inj h).symm⟩
  · exact .inr ⟨hj, h⟩

theorem dropCall_some {g : Guard κ} {k j : κ} {d : GuardedCall} (h : (g.dropCall k).call? j = some d) :
    j ≠ k ∧ g.call? j = some d := by
  rw [call?_dropCall] at h
  split_ifs at h with hj
  exact ⟨hj, h⟩

/-! ## Turns -/

/-- one step of a run: the guard that it meets, and the step -/
structure Turn (κ : Type) where
  guard : Guard κ
  event : Event κ

namespace Turn

def next (t : Turn κ) : Guard κ := (t.guard.step t.event).1

/-- the call that takes a token in a turn -/
def pays? (t : Turn κ) : Option κ :=
  match t.event with
  | .pay k now =>
    if (t.guard.call? k).any (fun c => c.phase = .admitted) ∧ (t.guard.limiter.take 1 now).2 then some k else none
  | _ => none

/-- the call that is started in a turn -/
def starts? (t : Turn κ) : Option κ :=
  match t.event with
  | .start k =>
    if (t.guard.call? k).any (fun c => c.phase = .waiting) ∧ t.guard.slots.holds k then some k else none
  | _ => none

end Turn

def turns (g : Guard κ) : List (Event κ) → List (Turn κ)
  | [] => []
  | e :: es => ⟨g, e⟩ :: turns (g.step e).1 es

theorem runFrom_snoc (g : Guard κ) (es : List (Event κ)) (e : Event κ) :
    g.runFrom (es ++ [e]) = ((g.runFrom es).step e).1 := by
  simp [runFrom, List.foldl_append]

theorem turns_snoc (g : Guard κ) (es : List (Event κ)) (e : Event κ) :
    g.turns (es ++ [e]) = g.turns es ++ [⟨g.runFrom es, e⟩] := by
  induction es generalizing g with
  | nil => rfl
  | cons e' es ih => simp [turns, runFrom, ih]

/-! ## What a turn can do -/

/-- what a turn can make of the guard -/
inductive Change (t : Turn κ) : Guard κ → Prop where
  /-- nothing happens, or a call is refused by the breaker -/
  | idle (hp : t.pays? = none) (hs : t.starts? = none) : Change t t.guard
  /-- a call comes in with a permit -/
  | entered (k : κ) (p : Permit) (b : Breaker) (hnew : t.guard.call? k = none) (hp : t.pays? = none)
      (hs : t.starts? = none) : Change t (t.guard.enter k ⟨p, 0, .admitted⟩ b)
  /-- an attempt takes a token -/
  | paid (k : κ) (p : Permit) (n now : Nat) (l : Limiter) (hc : t.guard.call? k = some ⟨p, n, .admitted⟩)
      (hl : t.guard.limiter.take 1 now = (l, true)) (hp : t.pays? = some k) (hs : t.starts? = none) :
      Change t ({ t.guard with limiter := l, debits := t.guard.debits + 1 }.setCall k ⟨p, n, .paid⟩)
  /-- an attempt asks for a slot -/
  | asked (k : κ) (p : Permit) (n : Nat) (hc : t.guard.call? k = some ⟨p, n, .paid⟩) (hp : t.pays? = none)
      (hs : t.starts? = none) :
      Change t ({ t.guard with slots := t.guard.slots.arrive k }.setCall k ⟨p, n, .waiting⟩)
  /-- a call that has a slot starts -/
  | started (k : κ) (p : Permit) (n : Nat) (hc : t.guard.call? k = some ⟨p, n, .waiting⟩)
      (hk : k ∈ t.guard.slots.holders) (hp : t.pays? = none) (hs : t.starts? = some k) :
      Change t ({ t.guard with invocations := t.guard.invocations + 1 }.setCall k ⟨p, n, .running⟩)
  /-- a call goes on, which has to do with no slot and no token -/
  | moved (k : κ) (c c' : GuardedCall) (l : Limiter) (retries : Nat) (hc : t.guard.call? k = some c)
      (hl : l = t.guard.limiter ∨ ∃ now, t.guard.limiter.take 1 now = (l, false))
      (hengaged : c'.phase.engaged = c.phase.engaged) (hinside : c'.phase.inside = c.phase.inside)
      (htokened : c.phase.tokened = false) (htokened' : c'.phase.tokened = false) (hrefused : c'.phase.refused = false)
      (hp : t.pays? = none) (hs : t.starts? = none) :
      Change t ({ t.guard with limiter := l, retries := retries }.setCall k c')
  /-- a call has no slot any more and waits for none -/
  | vacated (k : κ) (c c' : GuardedCall) (hc : t.guard.call? k = some c) (hengaged : c'.phase.engaged = false)
      (htokened : c'.phase.tokened = false) (hrefused : c'.phase.refused = false) (hp : t.pays? = none)
      (hs : t.starts? = none) : Change t (t.guard.vacate k c').1
  /-- a call ends, or breaks down -/
  | ended (k : κ) (c : GuardedCall) (b : Breaker) (hc : t.guard.call? k = some c) (hengaged : c.phase.engaged = false)
      (htokened : c.phase.tokened = false) (hp : t.pays? = none) (hs : t.starts? = none) :
      Change t { t.guard.dropCall k with breaker := b }

/-- **All that a turn can do.** -/
theorem turn_change (t : Turn κ) : Change t t.next := by
  obtain ⟨g, e⟩ := t
  show Change ⟨g, e⟩ (g.step e).1
  cases e with
  | enter k now =>
    simp only [step]
    cases hc : g.call? k with
    | some c => exact .idle rfl rfl
    | none =>
      cases hb : g.breaker.acquire now with
      | error left => exact .idle rfl rfl
      | ok r => exact .entered k r.2 r.1 hc rfl rfl
  | pay k now =>
    simp only [step]
    split
    · rename_i p n hc
      cases hl : g.limiter.take 1 now with
      | mk l granted =>
        cases granted with
        | true =>
          exact .paid k p n now l hc hl (by simp [Turn.pays?, hc, hl]) rfl
        | false =>
          exact .moved k ⟨p, n, .admitted⟩ _ l _ hc (Or.inr ⟨now, hl⟩) rfl rfl rfl rfl rfl
            (by simp [Turn.pays?, hl]) rfl
    · rename_i hno
      refine .idle (if_neg fun h => ?_) rfl
      obtain ⟨p, n, hc⟩ := call?_of_any h.1
      exact hno p n hc
  | ask k =>
    simp only [step]
    split
    · rename_i p n hc
      exact .asked k p n hc rfl rfl
    · exact .idle rfl rfl
  | start k =>
    simp only [step]
    split
    · rename_i p n hc
      split_ifs with hk
      · exact .started k p n hc (by simpa [Slots.holds] using hk) rfl (by simp [Turn.starts?, hc, hk])
      · exact .idle rfl (by simp [Turn.starts?, hk])
    · rename_i hno
      refine .idle rfl (if_neg fun h => ?_)
      obtain ⟨p, n, hc⟩ := call?_of_any h.1
      exact hno p n hc
  | finish k error =>
    simp only [step]
    split
    · rename_i p n hc
      exact .moved k ⟨p, n, .running⟩ _ _ _ hc (Or.inl rfl) rfl rfl rfl rfl rfl rfl rfl
    · exact .idle rfl rfl
  | release k =>
    simp only [step]
    split
    · rename_i p n error hc
      exact .vacated k _ _ hc rfl rfl (by cases error <;> rfl) rfl rfl
    · exact .idle rfl rfl
  | giveUp k =>
    simp only [step]
    split
    · rename_i p n hc
      exact .vacated k _ _ hc rfl rfl rfl rfl rfl
    · exact .idle rfl rfl
  | judge k offset now =>
    simp only [step]
    split
    · rename_i p n error hc
      cases hr : g.worthRetry? n error with
      | some e =>
        cases hwait : Retry.backoff g.settings.retry n e offset with
        | some ms =>
          simp only [hwait]
          exact .moved k ⟨p, n, .over error⟩ _ _ _ hc (Or.inl rfl) rfl rfl rfl rfl rfl rfl rfl
        | none =>
          simp only [hwait]
          exact .ended k ⟨p, n, .over error⟩ _ hc rfl rfl rfl rfl
      | none => exact .ended k ⟨p, n, .over error⟩ _ hc rfl rfl rfl rfl
    · exact .idle rfl rfl
  | resume k =>
    simp only [step]
    split
    · rename_i p n ms hc
      exact .moved k ⟨p, n, .resting ms⟩ _ _ _ hc (Or.inl rfl) rfl rfl rfl rfl rfl rfl rfl
    · exact .idle rfl rfl
  | drop k =>
    simp only [step]
    split
    · rename_i c hc
      exact .vacated k c _ hc rfl rfl rfl rfl rfl
    · exact .idle rfl rfl
  | leave k =>
    simp only [step]
    split
    · rename_i p n hc
      exact .ended k ⟨p, n, .dropped⟩ _ hc rfl rfl rfl rfl
    · exact .idle rfl rfl

end Guard

end Foreman

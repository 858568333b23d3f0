/-
What users of a guarded resource can rely on, whatever the interleaving.

The parts are those of `Tokens` and `Places`, which hold after any steps; here they are said of every turn of a run. A call
that the breaker refuses is one that ends for the reason that the circuit is open: this comes about nowhere but at the
entry (`step_refused`), since no attempt is over for that reason.

Results:
- `turns_split`:  a turn of a run is one that meets the guard of an earlier moment.
- `step_refused`: a refused call leaves the guard as it is.
- `clear_runs`:   a call that finds the circuit closed, a token and a free slot runs.
- `stack_safe`:   starts, tokens, slots and refusals, after any steps of any number of calls.
-/
import Foreman.Proofs.Guard.Entrant
import Foreman.Proofs.Guard.Tokens

namespace Foreman.Guard

variable {κ : Type} [DecidableEq κ] {g : Guard κ} {t : Turn κ} {k : κ} {before after : List (Turn κ)}

/-- **A turn of a run** meets the guard as the turns before left it. -/
theorem turns_split {es : List (Event κ)} (h : g.turns es = before ++ t :: after) :
    ∃ es', before = g.turns es' ∧ t.guard = g.runFrom es' := by
  induction before generalizing g es with
  | nil =>
    cases es with
    | nil => cases h
    | cons e es =>
      obtain ⟨rfl, _⟩ := List.cons.inj h
      exact ⟨[], rfl, rfl⟩
  | cons u before ih =>
    cases es with
    | nil => cases h
    | cons e es =>
      obtain ⟨rfl, hrest⟩ := List.cons.inj h
      obtain ⟨es', hbefore, hguard⟩ := ih hrest
      exact ⟨e :: es', by rw [hbefore]; rfl, hguard⟩

/-- **A call that starts** has waited for a slot and has one. -/
theorem Turn.starts?_some (h : t.starts? = some k) :
    (∃ p n, t.guard.call? k = some ⟨p, n, .waiting⟩) ∧ k ∈ t.guard.slots.holders := by
  unfold starts? at h
  split at h
  · split_ifs at h with hstart
    cases h
    exact ⟨call?_of_any hstart.1, by simpa [Slots.holds] using hstart.2⟩
  · cases h

/-! ## Refusals -/

/-- the call that is refused in a turn, since the circuit is open -/
def Turn.refuses? (t : Turn κ) : Option κ :=
  match (t.guard.step t.event).2.ended with
  | some (k, .ended (some (.circuitOpen _ _))) => some k
  | _ => none

/-- no attempt is over for the reason that the circuit is open -/
def Tame (g : Guard κ) : Prop := ∀ k c, g.call? k = some c → c.phase.refused = false

theorem Tame.setCall (h : Tame g) {c : GuardedCall} (hc : c.phase.refused = false) : Tame (g.setCall k c) := by
  intro j d hd
  rcases setCall_some hd with ⟨-, rfl⟩ | ⟨-, hd⟩
  · exact hc
  · exact h j d hd

theorem Change.tame (h : Tame t.guard) (ht : Change t g) : Tame g := by
  cases ht with
  | idle => exact h
  | entered k p b hnew =>
    intro j d hd
    rcases enter_some hnew hd with ⟨-, rfl⟩ | ⟨-, hd⟩
    · rfl
    · exact h j d hd
  | paid k p n now l => exact Tame.setCall (g := { t.guard with limiter := l, debits := _ }) h rfl
  | asked k p n => exact Tame.setCall (g := { t.guard with slots := _ }) h rfl
  | started k p n => exact Tame.setCall (g := { t.guard with invocations := _ }) h rfl
  | moved k c c' l r _ _ _ _ _ _ hrefused =>
    exact Tame.setCall (g := { t.guard with limiter := l, retries := r }) h hrefused
  | vacated k c c' _ _ _ hrefused => exact Tame.setCall (g := { t.guard with slots := _ }) h hrefused
  | ended k c b =>
    intro j d hd
    exact h j d (dropCall_some hd).2

theorem run_tame (hnone : g.calls = []) (es : List (Event κ)) : Tame (g.runFrom es) := by
  induction es using List.reverseRecOn with
  | nil =>
    intro k c hc
    simp [runFrom, call?, hnone] at hc
  | append_singleton es e ih =>
    rw [runFrom_snoc]
    exact (turn_change ⟨g.runFrom es, e⟩).tame ih

/-- **What ends a call**: the breaker refuses it, or an attempt is over and no other is made. -/
theorem step_ended {e : Event κ} {error : Option GuardError} (h : (g.step e).2.ended = some (k, .ended error)) :
    (g.call? k = none ∧ (g.step e).1 = g) ∨ ∃ p n, g.call? k = some ⟨p, n, .over error⟩ := by
  cases e with
  | enter j now =>
    simp only [step] at h ⊢
    cases hc : g.call? j with
    | some c => simp [hc, quiet] at h
    | none =>
      cases hb : g.breaker.acquire now with
      | ok r => simp [hc, hb, quiet] at h
      | error left =>
        obtain ⟨rfl, _⟩ : j = k ∧ _ := by simpa [hc, hb] using h
        exact .inl ⟨hc, rfl⟩
  | judge j offset now =>
    simp only [step] at h
    split at h
    · rename_i p n error' hc
      split at h
      · split at h <;> cases h
      · obtain ⟨rfl, rfl⟩ : j = k ∧ error' = error := by simpa [conclude] using h
        exact .inr ⟨p, n, hc⟩
    · cases h
  | start j =>
    simp only [step] at h
    split at h
    · split_ifs at h <;> cases h
    · cases h
  | pay j now =>
    simp only [step] at h
    split at h
    · split_ifs at h <;> cases h
    · cases h
  | _ =>
    simp only [step] at h
    split at h <;> cases h

/-- **A refused call leaves the guard as it is**, and was not there before. -/
theorem step_refused (h : Tame t.guard) (hk : t.refuses? = some k) : t.guard.call? k = none ∧ t.next = t.guard := by
  obtain ⟨r, left, hended⟩ :
      ∃ r left, (t.guard.step t.event).2.ended = some (k, .ended (some (.circuitOpen r left))) := by
    unfold Turn.refuses? at hk
    split at hk
    · rename_i j r left hended
      cases hk
      exact ⟨r, left, hended⟩
    · cases hk
  rcases step_ended hended with hrefused | ⟨p, n, hc⟩
  · exact hrefused
  · have hno := h k _ hc
    cases hno

/-! ## A call that nothing stands in the way of -/

/-- what a call has to find at a guard to run at once -/
structure Clear (g : Guard κ) (k : κ) (now : Nat) : Prop where
  fresh : g.call? k = none
  circuit : ∃ b p, g.breaker.acquire now = .ok (b, p)
  token : (g.limiter.take 1 now).2 = true
  slot : g.slots.holders.length < g.slots.capacity
  line : g.slots.line = []

/-- **A call that nothing stands in the way of runs**, for one token and with a slot. -/
theorem clear_runs {now : Nat} (h : Clear g k now) :
    let g' := g.runFrom [.enter k now, .pay k now, .ask k, .start k]
    (∃ p, g'.call? k = some ⟨p, 0, .running⟩) ∧ k ∈ g'.slots.holders ∧ g'.debits = g.debits + 1 ∧
      g'.invocations = g.invocations + 1 := by
  obtain ⟨hnew, ⟨b, p, hb⟩, htoken, hslot, hline⟩ := h
  have hslot : (g.slots.arrive k).holds k = true := by simp [Slots.arrive, Slots.holds, hslot, hline]
  -- the guard with the token taken, and then with the start made
  let paid : Guard κ := { g with limiter := (g.limiter.take 1 now).1, debits := g.debits + 1 }
  let started : Guard κ := { paid with invocations := g.invocations + 1 }
  have hpay : ((g.enter k ⟨p, 0, .admitted⟩ b).step (.pay k now)).1 = paid.enter k ⟨p, 0, .paid⟩ b := by
    rw [step_pay_granted hnew b p 0 htoken]
  have hask : ((paid.enter k ⟨p, 0, .paid⟩ b).step (.ask k)).1 = (paid.asked k).enter k ⟨p, 0, .waiting⟩ b := by
    rw [step_ask (g := paid) hnew]
  have hstart : (((paid.asked k).enter k ⟨p, 0, .waiting⟩ b).step (.start k)).1 =
      (started.asked k).enter k ⟨p, 0, .running⟩ b := by
    rw [step_start (g := paid) hnew b p 0 hslot]
  have hrun : g.runFrom [.enter k now, .pay k now, .ask k, .start k] = (started.asked k).enter k ⟨p, 0, .running⟩ b := by
    simp only [runFrom, List.foldl_cons, List.foldl_nil, step_enter hnew hb, hpay, hask, hstart]
  rw [hrun]
  exact ⟨⟨p, call?_enter_self (g := started.asked k) hnew b _⟩, List.contains_iff_mem.1 hslot, rfl, rfl⟩

/-! ## The whole -/

/-- what users of a guard can rely on, after the turns `past` -/
structure Safe (s : GuardSettings) (past : List (Turn κ)) (g : Guard κ) : Prop where
  /-- a call starts with a token of its own, which this attempt took and no other start has used, and with a slot -/
  starts : ∀ before t after k, past = before ++ t :: after → t.starts? = some k →
    ∃ p n, t.guard.call? k = some ⟨p, n, .waiting⟩ ∧ Paid before k p n ∧ k ∈ t.guard.slots.holders
  debits : g.debits = past.countP fun t => t.pays?.isSome
  invocations : g.invocations = past.countP fun t => t.starts?.isSome
  covered : g.invocations ≤ g.debits
  /-- where nothing fills the bucket -/
  drained : Rate.ofNumber s.limiter.refillPerSec = .perSecond 0 → g.debits ≤ s.limiter.capacity
  /-- a call that runs has a slot -/
  runs : ∀ k p n, g.call? k = some ⟨p, n, .running⟩ → k ∈ g.slots.holders
  slots : g.slots.capacity = max s.bulkhead.capacity 1
  held : g.slots.holders.length ≤ g.slots.capacity
  running : g.running ≤ g.slots.capacity
  /-- a call that rests neither has a slot nor waits for one -/
  rests : ∀ k p n ms, g.call? k = some ⟨p, n, .resting ms⟩ → k ∉ g.slots.holders ∧ k ∉ g.slots.line
  /-- a call that is refused was not there before and leaves all as it is: tokens, slots, retries and starts -/
  refused : ∀ t ∈ past, ∀ k, t.refuses? = some k → t.guard.call? k = none ∧ t.next = t.guard
  /-- when all calls have ended, all slots are free -/
  vacant : g.calls = [] → g.slots.holders = [] ∧ g.slots.line = []
  /-- and yet a call runs that nothing stands in the way of -/
  runnable : ∀ k now, Clear g k now →
    (∃ p, (g.runFrom [.enter k now, .pay k now, .ask k, .start k]).call? k = some ⟨p, 0, .running⟩) ∧
      (g.runFrom [.enter k now, .pay k now, .ask k, .start k]).invocations = g.invocations + 1

/-- **The guard of a resource is safe, whatever the interleaving of its calls.** -/
theorem stack_safe (resource : String) (s : GuardSettings) (classifier : Classifier) (now : Nat) (es : List (Event κ)) :
    Safe s ((fresh resource s classifier now).turns es) ((fresh resource s classifier now).runFrom es) := by
  have hfresh := fresh_placed (κ := κ) resource s classifier now
  have h := run_placed hfresh es
  have haccounts := run_accounts hfresh ⟨rfl, rfl, le_rfl⟩ es
  refine
    { starts := ?_
      debits := haccounts.debits
      invocations := haccounts.invocations
      covered := (Nat.le_add_right _ _).trans haccounts.covered
      drained := fun hrate => ?_
      runs := fun k p n hc => h.inside k (by simp [hc, CallPhase.inside])
      slots := h.fits.size
      held := h.fits.size ▸ h.fits.held
      running := h.fits.size ▸ h.running_le
      rests := fun k p n ms hc => ?_
      refused := ?_
      vacant := h.vacant
      runnable := fun k now hclear => ⟨(clear_runs hclear).1, (clear_runs hclear).2.2.2⟩ }
  · intro before t after k hpast hstart
    obtain ⟨es', rfl, hguard⟩ := turns_split hpast
    obtain ⟨⟨p, n, hc⟩, hslot⟩ := Turn.starts?_some hstart
    exact ⟨p, n, hc, run_owned rfl es' k p n .waiting (hguard ▸ hc) rfl, hslot⟩
  · exact (run_drained ⟨hrate, rfl, Nat.cast_nonneg _, by simp [fresh, Limiter.full]⟩ es).debits_le
  · have hout : k ∉ ((fresh resource s classifier now).runFrom es).slots.present := fun hk => by
      simpa [hc, CallPhase.engaged] using (h.engaged k).1 hk
    exact not_or.1 (List.mem_append.not.1 hout)
  · intro t ht k hk
    obtain ⟨before, after, hpast⟩ := List.append_of_mem ht
    obtain ⟨es', _, hguard⟩ := turns_split hpast
    exact step_refused (hguard ▸ run_tame rfl es') hk

/-- call 2 waits too long for the only slot, and its token is lost; the third call finds the bucket empty -/
example :
    let s : GuardSettings :=
      { limiter := { capacity := 2, refillPerSec := .zero }, bulkhead := { capacity := 1, acquireTimeoutMs := 5 } }
    let g : Guard Nat := (fresh "agent" s .standard 0).runFrom
      ([.enter 1 0, .enter 2 1, .pay 2 2, .pay 1 2, .ask 1, .ask 2, .start 1, .start 2] ++ givingUp 2 9 ++
        entering 3 10 ++ finishing 1 none 0 11)
    g.debits = 2 ∧ g.invocations = 1 ∧ g.calls = [] ∧ g.slots.holders = [] := by
  decide +kernel

end Foreman.Guard

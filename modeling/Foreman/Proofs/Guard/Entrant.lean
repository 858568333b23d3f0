/-
The steps of the call that came in last.

Such a call stands behind all others (`Guard.enter`), so a step of it leaves the others where they are, and what the step
makes of the guard can be written down. A slot that it asks for and gives back, or a place in line that it gives up, leaves
no trace in the slots.

Results:
- `enter_setCall`, `enter_dropCall`: the call that came in last changes, or is taken out.
- `step_enter`, ..., `step_resume`:  what each step of it makes of the guard.
- `stepAll_append`, `stepAll_quiet`: several steps.
-/
import Foreman.Proofs.Guard.Steps
import Foreman.Proofs.Slots

namespace Foreman.Guard

variable {κ : Type} [DecidableEq κ]

/-! ## The call itself -/

section Enter

variable {g : Guard κ} {k : κ} (hnew : g.call? k = none) (b : Breaker)
include hnew

theorem keys_of_new : ∀ p ∈ g.calls, p.1 ≠ k := fun p hp he => by
  simpa [he] using List.lookup_eq_none_iff.1 hnew p hp

theorem call?_enter_self (c : GuardedCall) : (g.enter k c b).call? k = some c :=
  (call?_enter hnew c b k).trans (if_pos rfl)

theorem enter_setCall (c c' : GuardedCall) : (g.enter k c b).setCall k c' = g.enter k c' b := by
  have hmap : (g.calls.map fun p => if p.1 = k then (k, c') else p) = g.calls :=
    (List.map_congr_left fun p hp => if_neg (keys_of_new hnew p hp)).trans (List.map_id _)
  simp only [enter, setCall, List.map_append, hmap, List.map_cons, List.map_nil, if_true]

theorem enter_dropCall (c : GuardedCall) : (g.enter k c b).dropCall k = { g with breaker := b } := by
  have hfilter : (g.calls.filter fun p => p.1 ≠ k) = g.calls :=
    List.filter_eq_self.2 fun p hp => by simpa using keys_of_new hnew p hp
  simp only [enter, dropCall, List.filter_append, hfilter]
  simp

/-! ## Its steps -/

theorem step_enter {b : Breaker} {p : Permit} {now : Nat} (h : g.breaker.acquire now = .ok (b, p)) :
    g.step (.enter k now) = (g.enter k ⟨p, 0, .admitted⟩ b, quiet) := by
  simp only [step, hnew, h]
  rfl

variable (p : Permit) (n : Nat)

theorem step_pay_granted {now : Nat} (h : (g.limiter.take 1 now).2 = true) :
    (g.enter k ⟨p, n, .admitted⟩ b).step (.pay k now) =
      ({ g with limiter := (g.limiter.take 1 now).1, debits := g.debits + 1 }.enter k ⟨p, n, .paid⟩ b, quiet) := by
  simp only [step, call?_enter_self hnew]
  exact (if_pos h).trans (Prod.ext
    (enter_setCall (g := { g with limiter := (g.limiter.take 1 now).1, debits := g.debits + 1 }) hnew b _ _) rfl)

theorem step_pay_refused {now : Nat} (h : (g.limiter.take 1 now).2 = false) :
    (g.enter k ⟨p, n, .admitted⟩ b).step (.pay k now) =
      ({ g with limiter := (g.limiter.take 1 now).1 }.enter k
        ⟨p, n, .over (some (.rateLimited g.resource 1))⟩ b, quiet) := by
  simp only [step, call?_enter_self hnew]
  exact (if_neg (ne_true_of_eq_false h)).trans
    (Prod.ext (enter_setCall (g := { g with limiter := (g.limiter.take 1 now).1 }) hnew b _ _) rfl)

/-- the guard once a call has asked for a slot -/
def asked (g : Guard κ) (k : κ) : Guard κ := { g with slots := g.slots.arrive k }

theorem step_ask :
    (g.enter k ⟨p, n, .paid⟩ b).step (.ask k) = ((g.asked k).enter k ⟨p, n, .waiting⟩ b, quiet) := by
  simp only [step, call?_enter_self hnew]
  exact Prod.ext (enter_setCall (g := g.asked k) hnew b _ _) rfl

theorem step_start (hslot : (g.slots.arrive k).holds k = true) :
    ((g.asked k).enter k ⟨p, n, .waiting⟩ b).step (.start k) =
      (({ g with invocations := g.invocations + 1 }.asked k).enter k ⟨p, n, .running⟩ b, quiet) := by
  simp only [step, call?_enter_self (g := g.asked k) hnew]
  exact (if_pos hslot).trans
    (Prod.ext (enter_setCall (g := { g with invocations := g.invocations + 1 }.asked k) hnew b _ _) rfl)

theorem start_idle (hslot : (g.slots.arrive k).holds k = false) :
    ((g.asked k).enter k ⟨p, n, .waiting⟩ b).step (.start k) =
      ((g.asked k).enter k ⟨p, n, .waiting⟩ b, quiet) := by
  simp only [step, call?_enter_self (g := g.asked k) hnew]
  exact if_neg (ne_true_of_eq_false hslot)

theorem step_finish (error : Option CallError) :
    (g.enter k ⟨p, n, .running⟩ b).step (.finish k error) = (g.enter k ⟨p, n, .returned error⟩ b, quiet) := by
  simp only [step, call?_enter_self hnew, enter_setCall hnew]

/-- a call that has asked for a slot and goes away again, with or without it, leaves the slots as they were -/
theorem vacate_asked (hout : k ∉ g.slots.present) (c c' : GuardedCall) :
    ((g.asked k).enter k c b).vacate k c' = (g.enter k c' b, quiet) := by
  have hslots : ((g.asked k).enter k c b).slots.discard k = (g.slots, none) := Slots.discard_arrive hout
  simp only [vacate, hslots]
  exact Prod.ext (enter_setCall (g := g) hnew b c c') rfl

theorem step_release (hout : k ∉ g.slots.present) (error : Option CallError) :
    ((g.asked k).enter k ⟨p, n, .returned error⟩ b).step (.release k) =
      (g.enter k ⟨p, n, .over (error.map .call)⟩ b, quiet) := by
  simp only [step, call?_enter_self (g := g.asked k) hnew]
  exact vacate_asked hnew b hout _ _

theorem step_giveUp (hout : k ∉ g.slots.present) :
    ((g.asked k).enter k ⟨p, n, .waiting⟩ b).step (.giveUp k) =
      (g.enter k
        ⟨p, n, .over (some (.noSlot g.resource (.ofMillis g.settings.bulkhead.acquireTimeoutMs)))⟩ b, quiet) := by
  simp only [step, call?_enter_self (g := g.asked k) hnew]
  exact vacate_asked hnew b hout _ _

theorem step_judge_again {error : Option GuardError} {e : CallError} {offset : Rat} {ms : Nat}
    (h : g.worthRetry? n error = some e) (hms : Retry.backoff g.settings.retry n e offset = some ms) (now : Nat) :
    (g.enter k ⟨p, n, .over error⟩ b).step (.judge k offset now) =
      ({ g with retries := g.retries + 1 }.enter k ⟨p, n + 1, .resting ms⟩ b, quiet) := by
  have h' : worthRetry? (g.enter k ⟨p, n, .over error⟩ b) n error = some e := h
  have hms' : Retry.backoff (g.enter k ⟨p, n, .over error⟩ b).settings.retry n e offset = some ms := hms
  simp only [step, call?_enter_self hnew, h', hms']
  exact Prod.ext (enter_setCall (g := { g with retries := g.retries + 1 }) hnew b _ _) rfl

theorem step_judge_breaks {error : Option GuardError} {e : CallError} {offset : Rat}
    (h : g.worthRetry? n error = some e) (hnone : Retry.backoff g.settings.retry n e offset = none) (now : Nat) :
    (g.enter k ⟨p, n, .over error⟩ b).step (.judge k offset now) =
      ({ g with breaker := b.abandon p }, ⟨some (k, .broke), none⟩) := by
  have h' : worthRetry? (g.enter k ⟨p, n, .over error⟩ b) n error = some e := h
  have hnone' : Retry.backoff (g.enter k ⟨p, n, .over error⟩ b).settings.retry n e offset = none := hnone
  simp only [step, call?_enter_self hnew, h', hnone', breakDown, enter_dropCall hnew]
  rfl

theorem step_judge_ends {error : Option GuardError} (h : g.worthRetry? n error = none) (offset : Rat) (now : Nat) :
    (g.enter k ⟨p, n, .over error⟩ b).step (.judge k offset now) =
      ({ g with breaker := b.settle p (verdict error) now }, ⟨some (k, .ended error), none⟩) := by
  have h' : worthRetry? (g.enter k ⟨p, n, .over error⟩ b) n error = none := h
  simp only [step, call?_enter_self hnew, h', conclude, enter_dropCall hnew]
  rfl

theorem judge_idle {phase : CallPhase} (h : ∀ error, phase ≠ .over error) (offset : Rat) (now : Nat) :
    (g.enter k ⟨p, n, phase⟩ b).step (.judge k offset now) = (g.enter k ⟨p, n, phase⟩ b, quiet) := by
  simp only [step, call?_enter_self hnew]
  split
  · rename_i error hc
    cases hc
    exact absurd rfl (h error)
  · rfl

theorem step_resume (ms : Nat) :
    (g.enter k ⟨p, n, .resting ms⟩ b).step (.resume k) = (g.enter k ⟨p, n, .admitted⟩ b, quiet) := by
  simp only [step, call?_enter_self hnew, enter_setCall hnew]

end Enter

/-! ## Several steps -/

omit [DecidableEq κ] in
@[simp] theorem and_quiet (a : Effect κ) : a.and quiet = a := by simp [Effect.and, quiet]

omit [DecidableEq κ] in
theorem and_assoc (a b c : Effect κ) : (a.and b).and c = a.and (b.and c) := by simp [Effect.and, Option.or_assoc]

theorem stepAll_snoc (g : Guard κ) (es : List (Event κ)) (e : Event κ) :
    g.stepAll (es ++ [e]) =
      (((g.stepAll es).1.step e).1, (g.stepAll es).2.and ((g.stepAll es).1.step e).2) := by
  simp [stepAll, List.foldl_append]

theorem stepAll_append (g : Guard κ) (es more : List (Event κ)) :
    g.stepAll (es ++ more) =
      (((g.stepAll es).1.stepAll more).1, (g.stepAll es).2.and ((g.stepAll es).1.stepAll more).2) := by
  induction more using List.reverseRecOn with
  | nil => simp [stepAll]
  | append_singleton more e ih => rw [← List.append_assoc, stepAll_snoc, ih, stepAll_snoc, and_assoc]

theorem stepAll_cons (g : Guard κ) (e : Event κ) (es : List (Event κ)) :
    g.stepAll (e :: es) = (((g.step e).1.stepAll es).1, (g.step e).2.and ((g.step e).1.stepAll es).2) :=
  g.stepAll_append [e] es

theorem stepAll_append_quiet {g g' : Guard κ} {es : List (Event κ)} (h : g.stepAll es = (g', quiet))
    (more : List (Event κ)) : g.stepAll (es ++ more) = g'.stepAll more := by
  rw [stepAll_append, h]
  rfl

theorem stepAll_quiet {g g' : Guard κ} {e : Event κ} (h : g.step e = (g', quiet)) (es : List (Event κ)) :
    g.stepAll (e :: es) = g'.stepAll es := by
  have hone : g.stepAll [e] = (g', quiet) := h
  exact stepAll_append_quiet hone es

end Foreman.Guard

/-
Outcomes that come too late.

Between the granting of a normal permit and its end anything may happen: other callers acquire, settle and drop, and
the circuit may open and close many times. Whether the permit is stale at its end is judged by two epochs only. As the
epoch counts the openings, they differ exactly if the circuit has opened in between; and if it has not, the circuit is
closed, so the outcome counts.

Results:
- `take_kept`:   what others do leaves a caller its permit.
- `stale_inert`: a normal permit from before an opening changes nothing, and any other does what it says.
-/
import Foreman.Proofs.Breaker.History

namespace Foreman.Breaker

variable {κ : Type} [DecidableEq κ]

/-! ## A permit that is kept -/

def Op.endsFor (caller : κ) : Op κ → Bool
  | .acquire .. => false
  | .settle c .. => c = caller
  | .drop c => c = caller

theorem take_eq_some {d : Desk κ} {caller : κ} {p : Permit} :
    (∃ rest, d.take caller = some (p, rest)) ↔ d.out.find? (fun q => q.1 = caller) = some (caller, p) := by
  constructor
  · rintro ⟨rest, h⟩
    obtain ⟨q, hq, heq⟩ := Option.map_eq_some_iff.1 h
    have hk : q.1 = caller := by simpa using List.find?_some hq
    simp only [Prod.mk.injEq] at heq
    rw [hq, ← hk, ← heq.1]
  · intro h
    exact ⟨_, by rw [Desk.take, h]; rfl⟩

theorem step_granted {d : Desk κ} {caller : κ} {now : Nat} {b : Breaker} {p : Permit} (h : d.take caller = none)
    (ha : d.breaker.acquire now = .ok (b, p)) :
    (step d (.acquire caller now)).breaker = b ∧
      ∃ rest, (step d (.acquire caller now)).take caller = some (p, rest) := by
  have hstep : step d (.acquire caller now) = ⟨b, d.out ++ [(caller, p)]⟩ := by
    simp [step, h, Desk.enter, ha, Except.map, Except.toOption]
  have hnone : d.out.find? (fun q => q.1 = caller) = none := by simpa [Desk.take] using h
  rw [hstep]
  refine ⟨rfl, ?_⟩
  rw [take_eq_some, List.find?_append, hnone]
  simp

/-- **What others do leaves a caller its permit.** -/
theorem take_kept {d : Desk κ} {caller : κ} {p : Permit} {o : Op κ} (h : ∃ rest, d.take caller = some (p, rest))
    (ho : o.endsFor caller = false) : ∃ rest, (step d o).take caller = some (p, rest) := by
  -- a permit taken from the desk by another caller is not the one that is looked for
  have hother : ∀ {c q rest}, c ≠ caller → d.take c = some (q, rest) → ∀ b : Breaker,
      ∃ rest', Desk.take ⟨b, rest⟩ caller = some (p, rest') := by
    intro c q rest hc ht b
    obtain ⟨pre, post, hout, rfl⟩ := take_some ht
    rw [take_eq_some] at h ⊢
    simpa [hout, List.find?_append, List.find?_cons, hc] using h
  cases o with
  | acquire c now =>
    rcases step_acquire d c now with he | ⟨b, q, -, he⟩
    · rwa [he]
    · rw [take_eq_some] at h
      rw [he, take_eq_some, List.find?_append, h]
      rfl
  | settle c v now =>
    have hc : c ≠ caller := by simpa [Op.endsFor] using ho
    cases ht : d.take c with
    | none => simpa [step, ht] using h
    | some r => simpa [step, ht] using hother hc ht _
  | drop c =>
    have hc : c ≠ caller := by simpa [Op.endsFor] using ho
    cases ht : d.take c with
    | none => simpa [step, ht] using h
    | some r => simpa [step, ht] using hother hc ht _

theorem take_kept_all {d : Desk κ} {caller : κ} {p : Permit} (h : ∃ rest, d.take caller = some (p, rest))
    {ops : List (Op κ)} (hops : ∀ o ∈ ops, o.endsFor caller = false) :
    ∃ rest, (ops.foldl step d).take caller = some (p, rest) := by
  induction ops generalizing d with
  | nil => exact h
  | cons o ops ih =>
    exact ih (take_kept h (hops o List.mem_cons_self)) fun k hk => hops k (List.mem_cons_of_mem o hk)

/-! ## A permit that ends -/

theorem step_settle {d : Desk κ} {caller : κ} {p : Permit} (h : ∃ rest, d.take caller = some (p, rest)) (v : Verdict)
    (now : Nat) : (step d (.settle caller v now)).breaker = d.breaker.settle p v now := by
  obtain ⟨rest, h⟩ := h
  simp [step, h]

theorem step_drop {d : Desk κ} {caller : κ} {p : Permit} (h : ∃ rest, d.take caller = some (p, rest)) :
    (step d (.drop caller)).breaker = d.breaker.settle p .exhaustion 0 := by
  obtain ⟨rest, h⟩ := h
  simp [step, h, abandon_eq_settle _ _ 0]

omit [DecidableEq κ] in
/-- a normal permit of the present epoch does what it says, on a closed circuit -/
theorem settle_present {d : Desk κ} {p : Permit} (hd : Dated d) (hc : d.breaker.circuit = .closed)
    (hp : p.kind = .normal) (he : p.epoch = d.breaker.epoch) (now : Nat) :
    (d.breaker.settle p .success now).failures = 0 ∧
      (d.breaker.settle p .failure now).failures = d.breaker.failures + 1 := by
  have hstale : d.breaker.isStale p = false := by simp [isStale, he, hc]
  obtain ⟨-, hroom⟩ := hd.room hc
  constructor
  · simp [settle, succeed, hstale, hp]
  · simp only [settle, fail, hstale, hp, trip, hroom, Bool.false_eq_true, if_false]
    split_ifs <;> rfl

/-! ## Main result -/

/-- **Outcomes from before an opening change nothing.** A caller is granted a normal permit and keeps it, while others
take any steps. If the circuit opens in any of these, then settling the permit with any verdict, or dropping it, leaves
every field of the breaker as it is. If it opens in none of them, a success sets the count back, and a failure raises it
by one. -/
theorem stale_inert (threshold : UInt32) (reset : Duration) (before after : List (Op κ)) (caller : κ) (asked : Nat)
    {b : Breaker} {p : Permit} (hfree : (run threshold reset before).take caller = none)
    (hgranted : (run threshold reset before).breaker.acquire asked = .ok (b, p)) (hnormal : p.kind = .normal)
    (hkept : ∀ o ∈ after, o.endsFor caller = false) :
    let issued := run threshold reset (before ++ [.acquire caller asked])
    let d := after.foldl step issued
    (∃ rest, d.take caller = some (p, rest)) ∧
      ((∃ t ∈ turns issued after, t.opens = true) →
        (∀ v now, (step d (.settle caller v now)).breaker = d.breaker) ∧ (step d (.drop caller)).breaker = d.breaker) ∧
      ((∀ t ∈ turns issued after, t.opens = false) → ∀ now,
        (step d (.settle caller .success now)).breaker.failures = 0 ∧
          (step d (.settle caller .failure now)).breaker.failures = d.breaker.failures + 1) := by
  intro issued d
  have hd : d = run threshold reset ((before ++ [.acquire caller asked]) ++ after) := by
    simp only [d, issued, run, List.foldl_append]
  -- the permit is from the epoch that the breaker had at its granting
  obtain ⟨hissued, htaken⟩ := step_granted hfree hgranted
  rw [← run_snoc] at hissued htaken
  have hepoch : p.epoch = issued.breaker.epoch := by
    rcases acquire_cases hgranted with ⟨-, rfl, rfl⟩ | ⟨-, rfl, -⟩
    · exact congrArg Breaker.epoch hissued.symm
    · cases hnormal
  have hsince : d.breaker.epoch = p.epoch + (turns issued after).countP Turn.opens := by
    rw [hd, hepoch]
    exact run_epoch_append threshold reset _ after
  have htake := take_kept_all htaken hkept
  refine ⟨htake, fun hopened => ?_, fun hnever now => ?_⟩
  · have hpos : 0 < (turns issued after).countP Turn.opens := List.countP_pos_iff.2 hopened
    have hold : p.epoch ≠ d.breaker.epoch := by omega
    refine ⟨fun v now => ?_, ?_⟩
    · rw [step_settle htake, settle_old _ hnormal hold]
    · rw [step_drop htake, settle_old _ hnormal hold]
  · have hzero : (turns issued after).countP Turn.opens = 0 :=
      List.countP_eq_zero.2 fun t ht => by simp [hnever t ht]
    have hsame : p.epoch = d.breaker.epoch := by omega
    have hdated : Dated d := hd ▸ (run_dated threshold reset _).1
    obtain ⟨rest, hrest⟩ := htake
    have hc := hdated.present _ (mem_of_take hrest).1 hnormal hsame
    rw [step_settle ⟨rest, hrest⟩, step_settle ⟨rest, hrest⟩]
    exact settle_present hdated hc hnormal hsame now

/-- caller 1 has its permit while the circuit opens, closes, opens and closes again: its failure is not counted. With a
higher threshold the circuit stays closed, and the failure is the second one -/
theorem stale_inert_reopened :
    let others : List (Op Nat) := [.settle 2 .failure 2, .acquire 3 9, .settle 3 .success 10, .acquire 4 11,
      .settle 4 .failure 12, .acquire 5 20, .settle 5 .success 21]
    let reopened := run 1 ⟨3⟩ ([.acquire 2 0, .acquire 1 1] ++ others)
    let calm := run 3 ⟨3⟩ [.acquire 2 0, .acquire 1 1, .settle 2 .failure 2]
    (reopened.breaker.circuit = .closed ∧ reopened.breaker.epoch = 2 ∧
        (step reopened (.settle 1 .failure 30)).breaker = reopened.breaker) ∧
      calm.breaker.failures = 1 ∧ (step calm (.settle 1 .failure 30)).breaker.failures = 2 := by
  intro others reopened calm
  obtain ⟨-, hold, -⟩ := stale_inert 1 ⟨3⟩ [.acquire 2 0] others 1 1 (by decide) rfl rfl (by decide)
  obtain ⟨-, -, hpresent⟩ := stale_inert 3 ⟨3⟩ [.acquire 2 0] [.settle 2 .failure 2] 1 1 (by decide) rfl rfl
    (by decide)
  exact ⟨⟨by decide, by decide, (hold (by decide)).1 .failure 30⟩, by decide, (hpresent (by decide) 30).2⟩

end Foreman.Breaker

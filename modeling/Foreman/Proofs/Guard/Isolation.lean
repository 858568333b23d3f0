/-
The guards of several resources have nothing to do with each other.

A house makes the guard of a resource when the resource is first called, and steps at one guard touch no other. So whoever
calls one resource alone cannot tell from its answers, or from what becomes of its guard, which other resources are called in
between: not from the breaker, the bucket, the slots or the counts, and not from the moment at which the guard is made either,
since that is the first call to this resource in any case (`Agree`).

Results:
- `answer_self`, `answer_other`: what a call does to its own guard and to the others.
- `Agree.answer`:    houses that agree on a resource answer its calls alike and go on agreeing.
- `run_refused`:     a call that the breaker refuses.
- `answer_result`:   each call comes to an end.
- `resources_apart`: calls to other resources may as well be left out.
-/
import Foreman.Proofs.Guard.Call

namespace Foreman.Guard

/-! ## A call that the breaker refuses -/

section Refused

variable {κ : Type} [DecidableEq κ] {g : Guard κ} {k : κ} {now : Nat} {left : Duration}

/-- **A call that the breaker refuses** ends at once, and none of its attempts comes about. -/
theorem run_refused (hnew : g.call? k = none) (hrefuse : g.breaker.acquire now = .error left) (plan : Nat → Attempt)
    (n : Nat) :
    g.stepAll (callSteps g.settings k now plan n) = (g, ⟨some (k, .ended (some (.circuitOpen g.resource left))), none⟩) := by
  induction n with
  | zero =>
    have henter : g.step (.enter k now) =
        (g, ⟨some (k, .ended (some (.circuitOpen g.resource left))), none⟩) := by
      simp only [step, hnew, hrefuse]
    rw [callSteps, List.range_zero, List.flatMap_nil, stepAll_cons, henter]
    rfl
  | succ n ih =>
    have hgone := stepAll_gone (g := g) hnew (plan n) g.settings (List.Subset.refl _)
    rw [callSteps_succ, stepAll_append, ih, hgone]
    rfl

end Refused

namespace House

variable {κ : Type}

/-! ## Calls one after the other -/

/-- a call to a resource, with all that it meets with -/
structure Call (κ : Type) where
  resource : String
  key : κ
  /-- when the guard is looked for, and made if there is none -/
  soughtAt : Nat
  /-- when the call asks for its permit -/
  entersAt : Nat
  plan : Nat → Attempt

structure Answer (κ : Type) where
  resource : String
  /-- how the call comes out -/
  result : Option CallResult
  /-- how often it is started -/
  invocations : Nat
  /-- the guard of its resource afterwards -/
  guard : Guard κ

/-- the steps of a call at a guard, which allows it so many attempts -/
def Call.steps (c : Call κ) (g : Guard κ) : List (Event κ) :=
  callSteps g.settings c.key c.entersAt c.plan (Retry.attempts g.settings.retry)

variable [DecidableEq κ]

/-- a call from its beginning to its end, with nothing in between -/
def answer (h : House κ) (c : Call κ) : House κ × Answer κ :=
  let g := h.guard c.resource c.soughtAt
  let (h', effect) := h.stepAll c.resource c.soughtAt (c.steps g)
  let g' := h'.guard c.resource c.soughtAt
  (h', ⟨c.resource, effect.ended.map Prod.snd, g'.invocations - g.invocations, g'⟩)

def answers (h : House κ) : List (Call κ) → House κ × List (Answer κ)
  | [] => (h, [])
  | c :: cs =>
    let (h', a) := h.answer c
    let (h'', rest) := h'.answers cs
    (h'', a :: rest)

/-! ## One call -/

omit [DecidableEq κ] in
theorem lookup_put (r q : String) (g : Guard κ) (gs : List (String × Guard κ)) :
    (put r g gs).lookup q = if q = r then some g else gs.lookup q := by
  induction gs with
  | nil =>
    by_cases hq : q = r
    · simp [put, hq]
    · simp [put, hq, List.lookup_cons, beq_false_of_ne hq]
  | cons p gs ih =>
    obtain ⟨s, d⟩ := p
    rw [put]
    by_cases hs : s = r <;> by_cases hq : q = r <;> by_cases hqs : q = s <;> grind

variable {h h' : House κ} {r q : String}

omit [DecidableEq κ] in
theorem guard_of_lookup {g : Guard κ} (hg : h.guards.lookup r = some g) (now : Nat) : h.guard r now = g := by
  rw [guard, hg]

variable (c : Call κ)

/-- a call leaves its guard as its steps do -/
theorem answer_self :
    (h.answer c).1.guards.lookup c.resource =
      some ((h.guard c.resource c.soughtAt).stepAll (c.steps (h.guard c.resource c.soughtAt))).1 :=
  (lookup_put c.resource c.resource _ _).trans (if_pos rfl)

/-- **A call touches no other guard.** -/
theorem answer_other (hne : q ≠ c.resource) : (h.answer c).1.guards.lookup q = h.guards.lookup q :=
  (lookup_put c.resource q _ _).trans (if_neg hne)

theorem answer_eq :
    let g := h.guard c.resource c.soughtAt
    let made := g.stepAll (c.steps g)
    (h.answer c).2 = ⟨c.resource, made.2.ended.map Prod.snd, made.1.invocations - g.invocations, made.1⟩ := by
  intro g made
  have hafter : (h.answer c).1.guard c.resource c.soughtAt = made.1 := guard_of_lookup (answer_self c) c.soughtAt
  rw [← hafter]
  rfl

variable {c}

/-! ## Houses that agree on a resource -/

/-- two houses that are the same for the calls to one resource: they have the same guard for it, or none, and would make
the same one -/
structure Agree (r : String) (h h' : House κ) : Prop where
  settings : h.settings = h'.settings
  classifier : h.classifiers.lookup r = h'.classifiers.lookup r
  guard : h.guards.lookup r = h'.guards.lookup r

omit [DecidableEq κ] in
theorem Agree.refl (h : House κ) : Agree r h h := ⟨rfl, rfl, rfl⟩

omit [DecidableEq κ] in
/-- they find the same guard, whether it is there or has to be made -/
theorem Agree.guard_eq (hagree : Agree r h h') (now : Nat) : h.guard r now = h'.guard r now := by
  unfold House.guard
  rw [hagree.guard, hagree.settings, hagree.classifier]

theorem Agree.other (hagree : Agree r h h') (hc : c.resource ≠ r) : Agree r (h.answer c).1 h' :=
  ⟨hagree.settings, hagree.classifier, (answer_other c (Ne.symm hc)).trans hagree.guard⟩

/-- **A call to the resource** is answered alike, and leaves the houses in agreement. -/
theorem Agree.answer (hagree : Agree r h h') (hc : c.resource = r) :
    (h.answer c).2 = (h'.answer c).2 ∧ Agree r (h.answer c).1 (h'.answer c).1 := by
  subst hc
  have hguard := hagree.guard_eq c.soughtAt
  refine ⟨?_, hagree.settings, hagree.classifier, ?_⟩
  · rw [answer_eq, answer_eq, hguard]
  · rw [answer_self, answer_self, hguard]

def heard (r : String) (as : List (Answer κ)) : List (Answer κ) := as.filter fun a => a.resource = r

/-- **Any number of calls**, of which one house sees only those to the resource. -/
theorem Agree.answers (hagree : Agree r h h') (cs : List (Call κ)) :
    heard r (h.answers cs).2 = (h'.answers (cs.filter fun c => c.resource = r)).2 ∧
      Agree r (h.answers cs).1 (h'.answers (cs.filter fun c => c.resource = r)).1 := by
  induction cs generalizing h h' with
  | nil => exact ⟨rfl, hagree⟩
  | cons c cs ih =>
    have hname : (h.answer c).2.resource = c.resource := rfl
    by_cases hc : c.resource = r
    · obtain ⟨hsame, hnext⟩ := hagree.answer hc
      obtain ⟨hrest, hlast⟩ := ih hnext
      rw [List.filter_cons_of_pos (by simpa using hc)]
      refine ⟨?_, hlast⟩
      show heard r ((h.answer c).2 :: _) = (h'.answer c).2 :: _
      rw [heard, List.filter_cons_of_pos (by simpa [hname] using hc), ← hsame]
      exact congrArg _ hrest
    · obtain ⟨hrest, hlast⟩ := ih (hagree.other hc)
      rw [List.filter_cons_of_neg (by simpa using hc)]
      refine ⟨?_, hlast⟩
      show heard r ((h.answer c).2 :: _) = _
      rw [heard, List.filter_cons_of_neg (by simpa [hname] using hc)]
      exact hrest

/-! ## Each call comes to an end -/

/-- no call goes by this key, at any resource -/
def Unused (h : House κ) (k : κ) : Prop :=
  ∀ r g, h.guards.lookup r = some g → g.call? k = none ∧ k ∉ g.slots.present

theorem Unused.guard {k : κ} (hk : h.Unused k) (r : String) (now : Nat) :
    (h.guard r now).call? k = none ∧ k ∉ (h.guard r now).slots.present := by
  cases hg : h.guards.lookup r with
  | some g =>
    rw [guard_of_lookup hg]
    exact hk r g hg
  | none =>
    simp only [House.guard, hg]
    exact ⟨rfl, List.not_mem_nil⟩

/-- a call that came under an unused key has come out, and keys that were unused still are -/
theorem answer_result (hc : h.Unused c.key) :
    (h.answer c).2.result.isSome = true ∧ ∀ k, h.Unused k → (h.answer c).1.Unused k := by
  obtain ⟨hnew, hout⟩ := hc.guard c.resource c.soughtAt
  have hself := answer_self (h := h) c
  have hanswer := answer_eq (h := h) c
  have hthere := fun k (hk : h.Unused k) => hk.guard c.resource c.soughtAt
  generalize h.guard c.resource c.soughtAt = g at hnew hout hself hanswer hthere
  -- what the steps of the call do to its guard, be it granted a permit or refused one
  obtain ⟨g', result, hsteps, hcalls, hslots⟩ : ∃ g' result, g.stepAll (c.steps g) = (g', ⟨some (c.key, result), none⟩) ∧
      g'.calls = g.calls ∧ g'.slots = g.slots := by
    cases hgrant : g.breaker.acquire c.entersAt with
    | error left => exact ⟨_, _, run_refused hnew hgrant c.plan _, rfl, rfl⟩
    | ok r =>
      have hlast : g.ending c.plan < Retry.attempts g.settings.retry :=
        (Retry.ending_le _ _ _).trans_lt (Retry.deciding_lt _ _ _)
      exact ⟨_, _, run_over hnew hout hgrant hlast, rfl, rfl⟩
  refine ⟨?_, fun k hk r d hd => ?_⟩
  · rw [hanswer, hsteps]
    rfl
  · by_cases hr : r = c.resource
    · rw [hr, hself, hsteps, Option.some.injEq] at hd
      rw [← hd, call?, hcalls, hslots]
      exact hthere k hk
    · exact hk r d ((answer_other c hr).symm.trans hd)

/-- **Each call comes to an end**, if it comes under a key that is unused. -/
theorem answers_result {cs : List (Call κ)} (hcs : ∀ c ∈ cs, h.Unused c.key) :
    ∀ a ∈ (h.answers cs).2, a.result.isSome = true := by
  induction cs generalizing h with
  | nil => intro a ha; cases ha
  | cons c cs ih =>
    obtain ⟨hfirst, hkeep⟩ := answer_result (hcs c List.mem_cons_self)
    intro a ha
    rcases List.mem_cons.1 ha with rfl | ha
    · exact hfirst
    · exact ih (fun d hd => hkeep _ (hcs d (List.mem_cons_of_mem _ hd))) a ha

/-! ## The whole -/

/-- what calls to other resources change for one resource: nothing -/
structure Apart (h : House κ) (cs : List (Call κ)) (r : String) : Prop where
  /-- the answers to its calls, with the guard after each of them -/
  answers : heard r (h.answers cs).2 = (h.answers (cs.filter fun c => c.resource = r)).2
  /-- the guard in the end, if there is one -/
  guard : (h.answers cs).1.guards.lookup r =
    (h.answers (cs.filter fun c => c.resource = r)).1.guards.lookup r
  /-- and the guard that the next call to it will find -/
  next : ∀ now, (h.answers cs).1.guard r now = (h.answers (cs.filter fun c => c.resource = r)).1.guard r now
  /-- each call has come out, if it came under an unused key -/
  ended : (∀ c ∈ cs, h.Unused c.key) → ∀ a ∈ (h.answers cs).2, a.result.isSome = true

/-- **Calls to other resources may as well be left out**, whatever the house has seen before. -/
theorem resources_apart (h : House κ) (cs : List (Call κ)) (r : String) : Apart h cs r := by
  obtain ⟨hanswers, hagree⟩ := (Agree.refl (r := r) h).answers cs
  exact
    { answers := hanswers
      guard := hagree.guard
      next := hagree.guard_eq
      ended := answers_result }

/-- two resources with buckets and classifiers of their own: the first gives up when its token is gone, the second since its
errors are worth no other attempt, and both would do so alone -/
example :
    let s : GuardSettings := { limiter := { capacity := 1, refillPerSec := .zero } }
    let h : House Nat := .empty s [("strict", .never)]
    let down : Nat → Attempt := fun _ => ⟨0, true, .fails (.transport "down"), 0, 5⟩
    ((h.answers [⟨"agent", 1, 0, 0, down⟩, ⟨"strict", 2, 7, 7, down⟩, ⟨"strict", 3, 9, 9, down⟩]).2.map fun a =>
        (a.resource, a.result, a.invocations)) =
      [("agent", some (.ended (some (.rateLimited "agent" 1))), 1),
        ("strict", some (.ended (some (.call (.transport "down")))), 1),
        ("strict", some (.ended (some (.rateLimited "strict" 1))), 0)] := by
  decide +kernel

end House

end Foreman.Guard

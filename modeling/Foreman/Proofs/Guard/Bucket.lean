/-
What a token bucket gives out.

Between two clock readings a bucket fills, but never beyond its capacity, and what a request is granted was there before. So
as long as the clock does not go back, a bucket may give out what is in it and what flows in until then (`budget`), and at
the beginning of a stretch of time no more than its capacity can be in it. Refusals and looks take part in this like any
other turn: they bring the bucket to the clock reading and leave what is in it.

Results:
- `Sound.step_change`: all that a turn can do.
- `granted_le_budget`: what is given out in a stretch of time.
- `run_unfilled`:      where nothing flows in, what is given out is missing.
- `bucket_bounded`:    tokens, refusals and grants of any requests and looks.
-/
import Mathlib.Tactic
import Foreman.Guard.Limiter

namespace Foreman

/-! ## The rate -/

/-- only a rate that is infinite is without bound; one below zero, or none at all, is zero -/
theorem Rate.ofNumber_eq {x : Binary64} (hx : x ≠ .infinite false) : Rate.ofNumber x = .perSecond (max x.value 0) := by
  cases x with
  | finite negative units =>
    have hquot : 0 ≤ mkRat (units : Int) Binary64.unitsPerOne := Rat.mkRat_nonneg (Int.natCast_nonneg units) _
    cases negative with
    | false =>
      have hvalue : (Binary64.finite false units).value = mkRat (units : Int) Binary64.unitsPerOne := rfl
      rw [hvalue, max_eq_left hquot]
      simp only [Rate.ofNumber, Bool.false_eq_true, if_false]
    | true =>
      have hvalue : (Binary64.finite true units).value = -mkRat (units : Int) Binary64.unitsPerOne :=
        (Rat.neg_mkRat _ _).symm
      rw [hvalue, max_eq_right (neg_nonpos.2 hquot)]
      rfl
  | infinite negative =>
    cases negative with
    | false => exact absurd rfl hx
    | true => rfl
  | nan negative => rfl

namespace Limiter

/-! ## Turns -/

/-- what happens to a bucket, at a clock reading -/
inductive Op where
  /-- so many tokens are asked for -/
  | take (n now : Nat)
  /-- someone looks how many there are -/
  | look (now : Nat)
deriving DecidableEq, Repr

def Op.time : Op → Nat
  | .take _ now => now
  | .look now => now

def step (l : Limiter) : Op → Limiter × Nat
  | .take n now => let (l', granted) := l.take n now; (l', if granted then n else 0)
  | .look now => ((l.available now).1, 0)

/-- one step of a run: the bucket that it meets, and the step -/
structure Turn where
  bucket : Limiter
  op : Op

def Turn.next (u : Turn) : Limiter := (u.bucket.step u.op).1

def Turn.granted (u : Turn) : Nat := (u.bucket.step u.op).2

def run (l : Limiter) (ops : List Op) : Limiter := ops.foldl (fun l o => (l.step o).1) l

def turns (l : Limiter) : List Op → List Turn
  | [] => []
  | o :: ops => ⟨l, o⟩ :: turns (l.step o).1 ops

def granted (us : List Turn) : Nat := (us.map Turn.granted).sum

/-- the turns from one clock reading to another, both included -/
def between (s t : Nat) (us : List Turn) : List Turn := us.filter fun u => s ≤ u.op.time ∧ u.op.time ≤ t

/-- a turn of a run meets the bucket as the turns before left it -/
theorem turns_split {l : Limiter} {ops : List Op} {before after : List Turn} {u : Turn}
    (h : l.turns ops = before ++ u :: after) : ∃ ops', before = l.turns ops' ∧ u.bucket = l.run ops' := by
  induction before generalizing l ops with
  | nil =>
    cases ops with
    | nil => cases h
    | cons o ops =>
      obtain ⟨rfl, -⟩ := List.cons.inj h
      exact ⟨[], rfl, rfl⟩
  | cons v before ih =>
    cases ops with
    | nil => cases h
    | cons o ops =>
      obtain ⟨rfl, hrest⟩ := List.cons.inj h
      obtain ⟨ops', rfl, hbucket⟩ := ih hrest
      exact ⟨o :: ops', rfl, hbucket⟩

/-! ## What a turn can do -/

def seconds (s t : Nat) : Rat := ((t - s : Nat) : Rat) / 1000000000

theorem seconds_nonneg (s t : Nat) : 0 ≤ seconds s t := div_nonneg (Nat.cast_nonneg _) (by norm_num)

theorem seconds_add {s t u : Nat} (hst : s ≤ t) (htu : t ≤ u) : seconds s t + seconds t u = seconds s u := by
  have hsum : (t - s) + (u - t) = u - s := by omega
  rw [seconds, seconds, seconds, ← hsum, Nat.cast_add, add_div]

theorem seconds_le {s s' t : Nat} (h : s ≤ s') : seconds s' t ≤ seconds s t :=
  div_le_div_of_nonneg_right (Nat.cast_le.2 (Nat.sub_le_sub_left h t)) (by norm_num)

/-- a bucket of a capacity and a rate that has neither less than nothing in it nor more than its capacity -/
structure Sound (capacity : Nat) (r : Rat) (l : Limiter) : Prop where
  size : l.capacity = capacity
  rate : l.rate = .perSecond r
  filling : 0 ≤ r
  low : 0 ≤ l.tokens
  high : l.tokens ≤ capacity

section Turns

variable {capacity : Nat} {r : Rat} {l : Limiter}

theorem full_sound (hr : 0 ≤ r) (start : Nat) : Sound capacity r (full capacity (.perSecond r) start) :=
  ⟨rfl, rfl, hr, Nat.cast_nonneg _, le_refl _⟩

/-- a bucket at a clock reading: what has flowed in is in it, as far as there is room -/
theorem Sound.refill_eq (h : Sound capacity r l) (now : Nat) :
    l.refill now =
      { l with tokens := min (l.tokens + r * seconds l.lastRefill now) capacity, lastRefill := now } := by
  have hseconds : mkRat ((now - l.lastRefill : Nat) : Int) 1000000000 = seconds l.lastRefill now := by
    rw [Rat.mkRat_eq_div, seconds]
    norm_num
  simp only [refill, h.rate, h.size, hseconds]
  rw [min_def]

theorem Sound.refill (h : Sound capacity r l) (now : Nat) : Sound capacity r (l.refill now) := by
  rw [h.refill_eq]
  refine ⟨h.size, h.rate, h.filling, le_min ?_ (Nat.cast_nonneg _), min_le_right _ _⟩
  exact add_nonneg h.low (mul_nonneg h.filling (seconds_nonneg _ _))

/-- a request is refused exactly if fewer tokens are there, and then none is taken -/
theorem take_cases (l : Limiter) (n now : Nat) :
    ((l.take n now).2 = true ∧ (n : Rat) ≤ (l.refill now).tokens ∧
        (l.take n now).1 = { l.refill now with tokens := (l.refill now).tokens - n }) ∨
      ((l.take n now).2 = false ∧ (l.refill now).tokens < n ∧ (l.take n now).1 = l.refill now) := by
  simp only [take]
  by_cases hn : (n : Rat) ≤ (l.refill now).tokens
  · simp only [if_pos hn]
    exact .inl ⟨trivial, hn, trivial⟩
  · simp only [if_neg hn]
    exact .inr ⟨trivial, not_le.1 hn, trivial⟩

/-- **All that a turn can do**: the bucket comes to the clock reading, and gives out of what is in it. -/
theorem Sound.step_change (h : Sound capacity r l) (o : Op) :
    ((l.step o).2 : Rat) ≤ (l.refill o.time).tokens ∧
      (l.step o).1 = { l.refill o.time with tokens := (l.refill o.time).tokens - (l.step o).2 } := by
  have hlow := (h.refill o.time).low
  cases o with
  | look now => exact ⟨by simpa [Limiter.step] using hlow, by simp [Limiter.step, available, Op.time]⟩
  | take n now =>
    simp only [Limiter.step, Op.time]
    rcases take_cases l n now with ⟨htaken, hn, hnext⟩ | ⟨hrefused, -, hnext⟩
    · rw [htaken, hnext]
      exact ⟨hn, rfl⟩
    · have hnone : (0 : Rat) ≤ (l.refill now).tokens := hlow
      rw [hrefused, hnext]
      exact ⟨by simpa using hnone, by simp⟩

theorem Sound.step (h : Sound capacity r l) (o : Op) : Sound capacity r (l.step o).1 := by
  have hat := h.refill o.time
  obtain ⟨hgranted, hnext⟩ := h.step_change o
  rw [hnext]
  exact ⟨hat.size, hat.rate, hat.filling, sub_nonneg.2 hgranted,
    (sub_le_self _ (Nat.cast_nonneg _)).trans hat.high⟩

theorem Sound.turn (h : Sound capacity r l) {ops : List Op} {u : Turn} (hu : u ∈ l.turns ops) :
    Sound capacity r u.bucket := by
  induction ops generalizing l with
  | nil => cases hu
  | cons o ops ih =>
    rcases List.mem_cons.1 hu with rfl | hu
    · exact h
    · exact ih (h.step o) hu

/-- what is in the bucket after a turn, and what was given out in it, was there before or has flowed in -/
theorem Sound.balance (h : Sound capacity r l) (o : Op) :
    (l.step o).1.tokens + (l.step o).2 = min (l.tokens + r * seconds l.lastRefill o.time) capacity := by
  rw [(h.step_change o).2, h.refill_eq]
  exact sub_add_cancel _ _

theorem Sound.lastRefill (h : Sound capacity r l) (o : Op) : (l.step o).1.lastRefill = o.time := by
  rw [(h.step_change o).2, h.refill_eq]

/-! ## A stretch of time -/

/-- what a bucket may give out from `s` to `t`: what is in it and what flows in; and if it is not yet `s`, no more than its
capacity can be in it then -/
def budget (l : Limiter) (r : Rat) (s t : Nat) : Rat :=
  if l.lastRefill < s then l.capacity + r * seconds s t else l.tokens + r * seconds l.lastRefill t

/-- a turn in the stretch pays what it gives out from the budget -/
theorem Sound.budget_step (h : Sound capacity r l) {o : Op} {s t : Nat} (hclock : l.lastRefill ≤ o.time)
    (hs : s ≤ o.time) (ht : o.time ≤ t) : (l.step o).2 + (l.step o).1.budget r s t ≤ l.budget r s t := by
  have hnext : (l.step o).1.budget r s t = (l.step o).1.tokens + r * seconds o.time t := by
    rw [budget, h.lastRefill, if_neg (not_lt.2 hs)]
  have hbalance := h.balance o
  unfold budget at hnext ⊢
  rw [hnext]
  split_ifs with hearly
  · calc ((l.step o).2 : Rat) + ((l.step o).1.tokens + r * seconds o.time t)
      _ = min (l.tokens + r * seconds l.lastRefill o.time) capacity + r * seconds o.time t := by
        rw [← hbalance]; ring
      _ ≤ capacity + r * seconds s t :=
        add_le_add (min_le_right _ _) (mul_le_mul_of_nonneg_left (seconds_le hs) h.filling)
      _ = l.capacity + r * seconds s t := by rw [h.size]
  · calc ((l.step o).2 : Rat) + ((l.step o).1.tokens + r * seconds o.time t)
      _ = min (l.tokens + r * seconds l.lastRefill o.time) capacity + r * seconds o.time t := by
        rw [← hbalance]; ring
      _ ≤ l.tokens + r * seconds l.lastRefill o.time + r * seconds o.time t :=
        add_le_add_left (min_le_left _ _) _
      _ = l.tokens + r * seconds l.lastRefill t := by rw [← seconds_add hclock ht]; ring

theorem Sound.budget_nonneg (h : Sound capacity r l) (s t : Nat) : 0 ≤ l.budget r s t := by
  unfold budget
  split_ifs
  · exact add_nonneg (Nat.cast_nonneg _) (mul_nonneg h.filling (seconds_nonneg _ _))
  · exact add_nonneg h.low (mul_nonneg h.filling (seconds_nonneg _ _))

/-- clock readings that do not go back -/
def Onward (start : Nat) (ops : List Op) : Prop := (start :: ops.map Op.time).Pairwise (· ≤ ·)

theorem Onward.head {start : Nat} {o : Op} {ops : List Op} (h : Onward start (o :: ops)) : start ≤ o.time :=
  List.rel_of_pairwise_cons h List.mem_cons_self

theorem Onward.tail {start : Nat} {o : Op} {ops : List Op} (h : Onward start (o :: ops)) : Onward o.time ops :=
  (List.pairwise_cons.1 h).2

/-- past the stretch there are no turns in it -/
theorem between_eq_nil {ops : List Op} {start s t : Nat} (hclock : Onward start ops) (ht : t < start) (l : Limiter) :
    between s t (l.turns ops) = [] := by
  induction ops generalizing l start with
  | nil => rfl
  | cons o ops ih =>
    have ho : t < o.time := ht.trans_le hclock.head
    rw [turns, between, List.filter_cons_of_neg (by simp [ho])]
    exact ih hclock.tail ho _

/-- **What is given out in a stretch of time** was in the bucket at its beginning or has flowed in. -/
theorem granted_le_budget (h : Sound capacity r l) {ops : List Op} (hclock : Onward l.lastRefill ops) (s t : Nat) :
    (granted (between s t (l.turns ops)) : Rat) ≤ l.budget r s t := by
  induction ops generalizing l with
  | nil => simpa [turns, between, granted] using h.budget_nonneg s t
  | cons o ops ih =>
    have hrest := ih (h.step o) (h.lastRefill o ▸ hclock.tail)
    rw [turns]
    by_cases hs : s ≤ o.time
    · by_cases ht : o.time ≤ t
      · -- the turn is in the stretch
        have hsplit : granted (between s t (⟨l, o⟩ :: turns (l.step o).1 ops)) =
            (l.step o).2 + granted (between s t (turns (l.step o).1 ops)) := by
          rw [between, List.filter_cons_of_pos (by simp [hs, ht])]
          rfl
        rw [hsplit, Nat.cast_add]
        exact (add_le_add_right hrest _).trans (h.budget_step hclock.head hs ht)
      · -- the stretch is over
        have hnil := between_eq_nil (s := s) hclock.tail (not_le.1 ht) (l.step o).1
        rw [between, List.filter_cons_of_neg (by simp [ht]), ← between, hnil]
        simpa [granted] using h.budget_nonneg s t
    · -- the stretch has not begun
      have hearly : l.lastRefill < s := hclock.head.trans_lt (not_le.1 hs)
      have hbudget : (l.step o).1.budget r s t = l.budget r s t := by
        rw [budget, budget, h.lastRefill, if_pos (not_le.1 hs), if_pos hearly, h.size, (h.step o).size]
      rw [between, List.filter_cons_of_neg (by simp [hs]), ← between, ← hbudget]
      exact hrest

/-! ## Where nothing flows in -/

/-- what is given out in a turn is missing from a bucket that nothing fills -/
theorem Sound.balance_unfilled (h : Sound capacity 0 l) (o : Op) : (l.step o).1.tokens + (l.step o).2 = l.tokens := by
  rw [h.balance o, zero_mul, add_zero, min_eq_left h.high]

/-- **What is given out is missing** from a bucket that nothing fills. -/
theorem run_unfilled (h : Sound capacity 0 l) (ops : List Op) :
    (l.run ops).tokens + granted (l.turns ops) = l.tokens ∧ Sound capacity 0 (l.run ops) := by
  induction ops generalizing l with
  | nil => exact ⟨by simp [run, turns, granted], h⟩
  | cons o ops ih =>
    obtain ⟨hrest, hsound⟩ := ih (h.step o)
    refine ⟨?_, hsound⟩
    have hsplit : granted (l.turns (o :: ops)) = (l.step o).2 + granted ((l.step o).1.turns ops) := rfl
    calc (l.run (o :: ops)).tokens + granted (l.turns (o :: ops))
      _ = ((l.step o).1.run ops).tokens + granted ((l.step o).1.turns ops) + (l.step o).2 := by
        rw [hsplit, Nat.cast_add]
        show ((l.step o).1.run ops).tokens + _ = _
        ring
      _ = l.tokens := by rw [hrest, h.balance_unfilled]

theorem take_unfilled_iff (h : Sound capacity 0 l) {given : Nat} (hsum : l.tokens + given = capacity) (n now : Nat) :
    (l.take n now).2 = true ↔ given + n ≤ capacity := by
  have hthere : (l.refill now).tokens = l.tokens := by
    rw [h.refill_eq, zero_mul, add_zero, min_eq_left h.high]
  have hfits : (n : Rat) ≤ l.tokens ↔ given + n ≤ capacity := by
    rw [← @Nat.cast_le Rat, Nat.cast_add, ← hsum, add_comm (given : Rat), add_le_add_iff_right]
  rcases take_cases l n now with ⟨htaken, hn, -⟩ | ⟨hrefused, hn, -⟩
  · rw [hthere, hfits] at hn
    simp [htaken, hn]
  · rw [hthere, ← not_le, hfits] at hn
    simp [hrefused, hn]

end Turns

/-! ## The whole -/

/-- what holds of the turns of a bucket `l` of a capacity and a rate -/
structure Bounded (capacity : Nat) (r : Rat) (l : Limiter) (ops : List Op) : Prop where
  /-- the tokens there are, before any turn, after a refill at any time, and after the turn -/
  tokens : ∀ u ∈ l.turns ops, (0 ≤ u.bucket.tokens ∧ u.bucket.tokens ≤ capacity) ∧
    (∀ now, 0 ≤ (u.bucket.available now).2 ∧ (u.bucket.available now).2 ≤ capacity) ∧
    0 ≤ u.next.tokens ∧ u.next.tokens ≤ capacity
  /-- in any stretch of time no more is given out than the capacity and what flows in -/
  window : ∀ s t, s ≤ t → (granted (between s t (l.turns ops)) : Rat) ≤ capacity + r * seconds s t
  /-- a request is refused exactly if fewer tokens are there -/
  refused : ∀ u ∈ l.turns ops, ∀ n now, u.op = .take n now →
    ((u.bucket.take n now).2 = false ↔ (u.bucket.refill now).tokens < n)
  /-- it takes what it is granted: all that it asked for, or nothing -/
  debited : ∀ u ∈ l.turns ops, ∀ n now, u.op = .take n now →
    u.granted = (if (u.bucket.take n now).2 then n else 0) ∧
      u.next = { u.bucket.refill now with tokens := (u.bucket.refill now).tokens - u.granted }
  /-- where nothing flows in, no more is ever given out than the capacity -/
  total : r = 0 → granted (l.turns ops) ≤ capacity
  /-- and a request is granted exactly if it still fits -/
  fits : r = 0 → ∀ before u after n now, l.turns ops = before ++ u :: after → u.op = .take n now →
    ((u.bucket.take n now).2 = true ↔ granted before + n ≤ capacity)

/-- **A bucket keeps within its bounds**, whatever it is asked for and however often it is looked at, as long as the clock
does not go back. Its rate is any number but the infinite one. -/
theorem bucket_bounded (capacity : Nat) {x : Binary64} (hx : x ≠ .infinite false) (start : Nat) {ops : List Op}
    (hclock : Onward start ops) :
    Bounded capacity (max x.value 0) (full capacity (.ofNumber x) start) ops := by
  rw [Rate.ofNumber_eq hx]
  have hr : (0 : Rat) ≤ max x.value 0 := le_max_right _ _
  generalize max x.value 0 = r at hr
  have h : Sound capacity r (full capacity (.perSecond r) start) := full_sound hr start
  refine
    { tokens := fun u hu => ?_
      window := fun s t _ => ?_
      refused := fun u _ n now _ => ?_
      debited := fun u hu n now hop => ?_
      total := fun hzero => ?_
      fits := fun hzero before u after n now hsplit _ => ?_ }
  · have hbucket := h.turn hu
    have hnext := hbucket.step u.op
    exact ⟨⟨hbucket.low, hbucket.high⟩, fun now => ⟨(hbucket.refill now).low, (hbucket.refill now).high⟩,
      hnext.low, hnext.high⟩
  · refine (granted_le_budget h hclock s t).trans ?_
    rw [budget]
    split_ifs with hearly
    · exact le_rfl
    · exact add_le_add_right (mul_le_mul_of_nonneg_left (seconds_le (not_lt.1 hearly)) hr) _
  · rcases take_cases u.bucket n now with ⟨htaken, hn, -⟩ | ⟨hrefused, hn, -⟩
    · simp [htaken, hn]
    · simp [hrefused, hn]
  · have hchange := ((h.turn hu).step_change u.op).2
    rw [Turn.next, Turn.granted, hchange, hop]
    exact ⟨rfl, rfl⟩
  · subst hzero
    have hsum := (run_unfilled h ops).1
    have hlow := (run_unfilled h ops).2.low
    have hle : (granted ((full capacity (.perSecond 0) start).turns ops) : Rat) ≤ capacity := by
      rw [show (capacity : Rat) = (full capacity (.perSecond 0) start).tokens from rfl, ← hsum]
      exact le_add_of_nonneg_left hlow
    exact_mod_cast hle
  · subst hzero
    obtain ⟨ops', rfl, hbucket⟩ := turns_split hsplit
    obtain ⟨hsum, hsound⟩ := run_unfilled h ops'
    rw [hbucket]
    exact take_unfilled_iff hsound hsum n now

/-- at one token a second, a look and a refusal in between cost the second token nothing of its second -/
theorem bucket_bounded_in_between :
    let ops : List Op := [.take 2 0, .look 500000000, .take 1 900000000, .take 1 1000000000]
    let l := full 2 (.ofNumber .one) 0
    Binary64.one ≠ .infinite false ∧ Onward 0 ops ∧ Bounded 2 (max Binary64.one.value 0) l ops ∧
      (l.turns ops).map Turn.granted = [2, 0, 0, 1] := by
  intro ops l
  have hx : Binary64.one ≠ .infinite false := nofun
  have hclock : Onward 0 ops := by simp [Onward, ops, Op.time]
  exact ⟨hx, hclock, bucket_bounded 2 hx 0 hclock, by decide +kernel⟩

end Limiter

end Foreman

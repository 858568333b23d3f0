/-
When a work loop stands still.

The loop compares a digest of its evidence with the one of the round before. The bytes that it digests do not tell all
lists of evidence apart, since a piece may have zeros in it. But evidence is only ever put last, so the list of a round
begins with the list of the round before, and a list with a piece more has more bytes. The digests are equal, then,
exactly if the round brought nothing new, as long as they tell those byte strings apart that this run has digested.

Results:
- `evidenceBytes_after`: the bytes are the same exactly if a round brought nothing new.
- `Compared.compare`:    one comparison.
- `stagnant_exact`:      what the loop counts, at every evaluation of every run.
-/
import Mathlib.Data.List.GetD
import Foreman.Digest.Sha256
import Foreman.Proofs.Keyed
import Foreman.Proofs.Loop.Rounds

namespace Foreman.WorkLoop

/-! ## Evidence -/

/-- the evidence that the tasks of some rounds leave: each piece where it arrived first -/
def evidenceAfter (harvest : List (List Task)) : List String := (arrivals harvest.flatten).eraseDups

theorem foldl_addEvidence (es : List String) : es.foldl addEvidence [] = es.eraseDups := Keyed.foldl_concat [] es

theorem evidenceAfter_snoc (H : List (List Task)) (ts : List Task) :
    evidenceAfter (H ++ [ts]) = evidenceAfter H ++ ((arrivals ts).removeAll (arrivals H.flatten)).eraseDups := by
  rw [evidenceAfter, List.flatten_append, List.flatten_singleton, arrivals_append, List.eraseDups_append]
  rfl

theorem evidenceBytes_append (as bs : List String) :
    evidenceBytes (as ++ bs) = evidenceBytes as ++ evidenceBytes bs := by
  simp [evidenceBytes]

/-- every piece has at least one byte, the zero after it -/
theorem evidenceBytes_eq_nil (es : List String) : evidenceBytes es = [] ↔ es = [] := by
  cases es <;> simp [evidenceBytes]

/-! ## Stale rounds -/

/-- the `j`-th round brought no piece of evidence that was not there before it -/
def Stale (harvest : List (List Task)) (j : Nat) : Prop :=
  ∀ e ∈ arrivals (harvest.getD (j - 1) []), e ∈ evidenceAfter (harvest.take (j - 1))

/-- the last `k` rounds were stale, and there was a round before them -/
def StaleFor (harvest : List (List Task)) (k : Nat) : Prop :=
  k < harvest.length ∧ ∀ j, harvest.length - k < j → j ≤ harvest.length → Stale harvest j

theorem stale_snoc {H : List (List Task)} (ts : List Task) {j : Nat} (h1 : 1 ≤ j) (hj : j ≤ H.length) :
    Stale (H ++ [ts]) j ↔ Stale H j := by
  have hlt : j - 1 < H.length := by omega
  rw [Stale, Stale, List.take_append_of_le_length (by omega), List.getD_append _ _ _ _ hlt]

theorem stale_last (H : List (List Task)) (ts : List Task) :
    Stale (H ++ [ts]) (H.length + 1) ↔ ∀ e ∈ arrivals ts, e ∈ evidenceAfter H := by
  rw [Stale, Nat.add_sub_cancel, List.take_left, List.getD_append_right _ _ _ _ le_rfl, Nat.sub_self]
  rfl

theorem staleFor_succ (H : List (List Task)) (ts : List Task) (k : Nat) :
    StaleFor (H ++ [ts]) (k + 1) ↔ Stale (H ++ [ts]) (H.length + 1) ∧ StaleFor H k := by
  rw [StaleFor, StaleFor, List.length_append, List.length_singleton]
  constructor
  · rintro ⟨hlt, hall⟩
    refine ⟨hall _ (by omega) le_rfl, by omega, fun j hj hle => ?_⟩
    exact (stale_snoc ts (by omega) hle).1 (hall j (by omega) (by omega))
  · rintro ⟨hlast, hlt, hall⟩
    refine ⟨by omega, fun j hj hle => ?_⟩
    rcases Nat.lt_or_ge H.length j with hj' | hj'
    · obtain rfl : j = H.length + 1 := by omega
      exact hlast
    · exact (stale_snoc ts (by omega) hj').2 (hall j (by omega) hj')

theorem greatest_succ {H : List (List Task)} {ts : List Task} (hlast : Stale (H ++ [ts]) (H.length + 1)) {k : Nat}
    (h : IsGreatest {k | StaleFor H k} k) : IsGreatest {k | StaleFor (H ++ [ts]) k} (k + 1) := by
  refine ⟨(staleFor_succ H ts k).2 ⟨hlast, h.1⟩, fun m hm => ?_⟩
  cases m with
  | zero => exact Nat.zero_le _
  | succ m => exact Nat.succ_le_succ (h.2 ((staleFor_succ H ts m).1 hm).2)

/-- after the first round, or one that brought something new, no round is stale -/
theorem greatest_zero {H : List (List Task)} {ts : List Task} (h : H = [] ∨ ¬ Stale (H ++ [ts]) (H.length + 1)) :
    IsGreatest {k | StaleFor (H ++ [ts]) k} 0 := by
  refine ⟨⟨by simp, fun j hj hle => absurd hle (by omega)⟩, fun m hm => ?_⟩
  cases m with
  | zero => exact le_rfl
  | succ m =>
    obtain ⟨hlast, hfor⟩ := (staleFor_succ H ts m).1 hm
    rcases h with rfl | hnot
    · exact absurd hfor.1 (Nat.not_lt_zero m)
    · exact absurd hlast hnot

/-- **The bytes are the same exactly if the round brought nothing new.** -/
theorem evidenceBytes_after (H : List (List Task)) (ts : List Task) :
    evidenceBytes (evidenceAfter (H ++ [ts])) = evidenceBytes (evidenceAfter H) ↔
      Stale (H ++ [ts]) (H.length + 1) := by
  have hnew : ((arrivals ts).removeAll (arrivals H.flatten)).eraseDups = [] ↔
      ∀ e ∈ arrivals ts, e ∈ arrivals H.flatten := by
    simp [List.eq_nil_iff_forall_not_mem, List.mem_eraseDups, List.removeAll]
  rw [stale_last, evidenceAfter_snoc, evidenceBytes_append, List.append_right_eq_self, evidenceBytes_eq_nil, hnew]
  simp only [evidenceAfter, List.mem_eraseDups]

/-! ## Comparing digests -/

/-- a digest that tells some byte strings apart -/
def TellsApart (digest : List UInt8 → List UInt8) (bytes : List (List UInt8)) : Prop :=
  ∀ a ∈ bytes, ∀ b ∈ bytes, digest a = digest b → a = b

theorem TellsApart.left {digest : List UInt8 → List UInt8} {as bs : List (List UInt8)}
    (h : TellsApart digest (as ++ bs)) : TellsApart digest as :=
  fun a ha b hb => h a (List.mem_append_left _ ha) b (List.mem_append_left _ hb)

/-- a context that was compared after each of some rounds, and what was digested for that -/
structure Compared (digest : List UInt8 → List UInt8) (bytes : List (List UInt8)) (rounds : List (List Task))
    (c : WorkContext) : Prop where
  first : rounds = [] → c.fingerprint = none
  digested : rounds ≠ [] → evidenceBytes (evidenceAfter rounds) ∈ bytes ∧
    c.fingerprint = some (digest (evidenceBytes (evidenceAfter rounds)))
  stagnant : rounds ≠ [] → IsGreatest {k | StaleFor rounds k} c.stagnant

theorem Compared.congr {digest : List UInt8 → List UInt8} {bytes : List (List UInt8)} {rounds : List (List Task)}
    {c c' : WorkContext} (h : Compared digest bytes rounds c) (hf : c'.fingerprint = c.fingerprint)
    (hs : c'.stagnant = c.stagnant) : Compared digest bytes rounds c' :=
  ⟨fun he => hf.trans (h.first he), fun hne => ⟨(h.digested hne).1, hf.trans (h.digested hne).2⟩,
    fun hne => hs ▸ h.stagnant hne⟩

/-- **One comparison** counts the round if it was stale, and else begins anew. -/
theorem Compared.compare {digest : List UInt8 → List UInt8} {bytes : List (List UInt8)} {H : List (List Task)}
    {ts : List Task} {c : WorkContext} (h : Compared digest bytes H c) (hc : c.evidence = evidenceAfter (H ++ [ts]))
    (hd : TellsApart digest (bytes ++ [evidenceBytes c.evidence])) :
    Compared digest (bytes ++ [evidenceBytes c.evidence]) (H ++ [ts]) (compareEvidence digest c) := by
  refine ⟨fun he => absurd he (by simp), fun _ => ⟨by simp [hc], by simp [compareEvidence, hc]⟩, fun _ => ?_⟩
  -- equal digests are digests of the same bytes, and so of a round that brought nothing new
  have hiff : H ≠ [] → (c.fingerprint = some (digest (evidenceBytes c.evidence)) ↔
      Stale (H ++ [ts]) (H.length + 1)) := by
    intro hne
    obtain ⟨hmem, hfingerprint⟩ := h.digested hne
    rw [← evidenceBytes_after, ← hc, hfingerprint, Option.some.injEq]
    constructor
    · intro heq
      exact (hd _ (List.mem_append_left _ hmem) _ (List.mem_append_right _ List.mem_cons_self) heq).symm
    · intro heq
      rw [heq]
  simp only [compareEvidence]
  by_cases hne : H = []
  · rw [h.first hne, if_neg (by simp)]
    exact greatest_zero (Or.inl hne)
  · by_cases hlast : Stale (H ++ [ts]) (H.length + 1)
    · rw [if_pos ((hiff hne).2 hlast)]
      exact greatest_succ hlast (h.stagnant hne)
    · rw [if_neg (mt (hiff hne).1 hlast)]
      exact greatest_zero (Or.inr hlast)

/-! ## Runs -/

variable {ω : Type} {w : World ω} {digest : List UInt8 → List UInt8} {s : Settings} {machineId : String}

/-- the bytes of which a step takes the digest -/
def hashed (r : Run ω) : List (List UInt8) :=
  match r.machine.state with
  | .evaluate => [evidenceBytes r.machine.context.data.evidence]
  | _ => []

/-- all bytes of which a digest was taken before a boundary -/
def hashedBefore (w : World ω) (digest : List UInt8 → List UInt8) (s : Settings) (n : Nat) (r : Run ω) :
    List (List UInt8) :=
  (List.range n).flatMap fun k => hashed (boundary w digest s k r)

theorem hashedBefore_succ (n : Nat) (r : Run ω) :
    hashedBefore w digest s (n + 1) r = hashedBefore w digest s n r ++ hashed (boundary w digest s n r) := by
  simp [hashedBefore, List.range_succ]

/-- what was compared in a state: all rounds, or all but one that has acted and was not evaluated yet -/
structure Judged (digest : List UInt8 → List UInt8) (bytes : List (List UInt8)) (harvest : List (List Task))
    (state : WorkState) (c : WorkContext) : Prop where
  all : state ≠ .synthesize → state ≠ .evaluate → Compared digest bytes harvest c
  butOne : state = .synthesize ∨ state = .evaluate → ∃ rounds ts, harvest = rounds ++ [ts] ∧
    Compared digest bytes rounds c

theorem Judged.of_compared {bytes : List (List UInt8)} {H : List (List Task)} {state : WorkState} {c : WorkContext}
    (h1 : state ≠ .synthesize) (h2 : state ≠ .evaluate) (h : Compared digest bytes H c) :
    Judged digest bytes H state c :=
  ⟨fun _ _ => h, fun hor => (hor.elim h1 h2).elim⟩

theorem Judged.compared {H : List (List Task)} {r : Run ω} {bytes : List (List UInt8)}
    (h : Judged digest bytes H r.machine.state r.machine.context.data)
    (hk : Knows H r.machine.state r.machine.context.data) (hs : r.machine.state = .evaluate)
    (hd : TellsApart digest (bytes ++ hashed r)) :
    Compared digest (bytes ++ hashed r) H (compareEvidence digest r.machine.context.data) := by
  have hhash : hashed r = [evidenceBytes r.machine.context.data.evidence] := by simp [hashed, hs]
  obtain ⟨rounds, ts, rfl, hc⟩ := h.butOne (Or.inr hs)
  have hevidence : r.machine.context.data.evidence = evidenceAfter (rounds ++ [ts]) := by
    rw [hk.learnt.evidence, foldl_addEvidence]
    rfl
  rw [hhash] at hd ⊢
  exact hc.compare hevidence hd

/-- **A step keeps the comparisons of a run**, as long as the digest tells apart what it is taken of. -/
theorem Judged.next {H : List (List Task)} {r : Run ω} {bytes : List (List UInt8)} (hr : Ruled machineId r)
    (hk : Knows H r.machine.state r.machine.context.data)
    (h : Judged digest bytes H r.machine.state r.machine.context.data) (hd : TellsApart digest (bytes ++ hashed r)) :
    Judged digest (bytes ++ hashed r) (H ++ harvest w s r) (next w digest s r).machine.state
      (next w digest s r).machine.context.data := by
  by_cases hact : r.machine.state = .act
  · have hnone : hashed r = [] := by simp [hashed, hact]
    have hnext := next_act w digest s hr hact
    have hframe := (acted_gathered w s r).frame
    rw [harvest_act hact, hnone, List.append_nil, hnext.state, hnext.data]
    refine ⟨fun hne => absurd rfl hne, fun _ => ⟨H, _, rfl, ?_⟩⟩
    exact (h.all (by simp [hact]) (by simp [hact])).congr hframe.fingerprint hframe.stagnant
  rw [harvest_idle hact, List.append_nil]
  by_cases hevaluate : r.machine.state = .evaluate
  · have hc := h.compared hk hevaluate hd
    have hnext := next_evaluate w digest s hr hevaluate
    cases hdec : decided w digest s r with
    | some reason =>
      simp only [hdec] at hnext
      rw [hnext.state, hnext.data]
      exact .of_compared (by decide) (by decide) (hc.congr rfl rfl)
    | none =>
      simp only [hdec] at hnext
      rw [hnext.state, hnext.data]
      exact .of_compared (by decide) (by decide) (hc.congr rfl rfl)
  have hnone : hashed r = [] := by
    cases hs : r.machine.state with
    | evaluate => exact absurd hs hevaluate
    | _ => simp [hashed, hs]
  rw [hnone, List.append_nil]
  cases hs : r.machine.state with
  | intake =>
    have hall := h.all (by simp [hs]) (by simp [hs])
    cases hg : Text.allBlank r.machine.context.data.goal with
    | true =>
      have hnext := next_blank w digest s hr hs hg
      rw [hnext.state, hnext.data]
      exact .of_compared (by decide) (by decide) hall
    | false =>
      have hnext := next_intake w digest s hr hs hg
      rw [hnext.state, hnext.data]
      exact .of_compared (by decide) (by decide) (hall.congr rfl rfl)
  | plan =>
    have hall := h.all (by simp [hs]) (by simp [hs])
    cases hc : plan r.machine.context.data with
    | none =>
      have hnext := next_noPlan w digest s hr hs hc
      rw [hnext.state, hnext.data]
      exact .of_compared (by decide) (by decide) hall
    | some c =>
      have hnext := next_plan w digest s hr hs hc
      obtain ⟨todos, next, rfl⟩ := plan_eq hc
      rw [hnext.state, hnext.data]
      exact .of_compared (by decide) (by decide) (hall.congr rfl rfl)
  | synthesize =>
    have hnext := next_synthesize w digest s hr hs
    obtain ⟨rounds, ts, hH, hc⟩ := h.butOne (Or.inl hs)
    rw [hnext.state, hnext.data]
    exact ⟨fun _ hne => absurd rfl hne, fun _ => ⟨rounds, ts, hH, hc.congr rfl rfl⟩⟩
  | done =>
    rw [next_done hs]
    exact h
  | failed =>
    rw [next_failed hr hs]
    exact h
  | act => exact absurd hs hact
  | evaluate => exact absurd hs hevaluate

theorem judged {r : Run ω} (hr : Ruled machineId r) (hk : Knows [] r.machine.state r.machine.context.data)
    (h : Judged digest [] [] r.machine.state r.machine.context.data) (n : Nat)
    (hd : TellsApart digest (hashedBefore w digest s n r)) :
    Judged digest (hashedBefore w digest s n r) (harvested w digest s n r) (boundary w digest s n r).machine.state
      (boundary w digest s n r).machine.context.data := by
  induction n with
  | zero => exact h
  | succ n ih =>
    rw [hashedBefore_succ] at hd ⊢
    rw [harvested_succ, boundary_succ w digest s hr]
    exact Judged.next (hr.boundary w digest s n) (knows w digest s hr hk n) (ih hd.left) hd

/-- whatever an evaluation decides, it leaves what it has compared -/
theorem next_compared {r : Run ω} (hr : Ruled machineId r) (hs : r.machine.state = .evaluate) :
    (next w digest s r).machine.context.data.evidence = r.machine.context.data.evidence ∧
      (next w digest s r).machine.context.data.stagnant =
        (compareEvidence digest r.machine.context.data).stagnant := by
  have hnext := next_evaluate w digest s hr hs
  cases hdec : decided w digest s r with
  | some reason =>
    simp only [hdec] at hnext
    rw [hnext.data]
    exact ⟨rfl, rfl⟩
  | none =>
    simp only [hdec] at hnext
    rw [hnext.data]
    exact ⟨rfl, rfl⟩

/-- **What a work loop counts as standing still is exact.** Take a run of a work loop with any goal, todos and
subagents in any world, and an evaluation of it, the one of the `i`-th iteration. Suppose that the digest tells apart
those byte strings that it was taken of up to now. Then the evidence is what all tasks taken in have brought, in their
order, later duplicates left out; and the loop counts the greatest `k < i` such that none of the last `k` rounds
brought any piece of evidence that was not there before it. -/
theorem stagnant_exact (w : World ω) (digest : List UInt8 → List UInt8) (s : Settings) (registry : Registry)
    (id : String) (observers : Nat) (hasStore : Bool) (goal : String) (changes : ChangeSet) (todos : List Todo)
    (nextId : Nat) (world : ω) (r : Run ω)
    (h : begin s registry id observers hasStore (.start goal changes todos nextId) world = .ok r) (n : Nat)
    (hn : (boundary w digest s n r).machine.state = .evaluate)
    (hd : TellsApart digest (hashedBefore w digest s (n + 1) r)) :
    let i := (boundary w digest s n r).machine.context.data.iteration
    let rounds := harvested w digest s n r
    let after := (boundary w digest s (n + 1) r).machine.context.data
    rounds.length = i ∧ after.evidence = (arrivals rounds.flatten).eraseDups ∧
      IsGreatest {k | k < i ∧ ∀ j, i - k < j → j ≤ i → Stale rounds j} after.stagnant ∧
      (0 < after.stagnant → Stale rounds i) := by
  intro i rounds after
  obtain ⟨-, hruled, hstate, hknows, -, -, hnone⟩ := begin_fresh h
  have hnothing : Compared digest [] [] r.machine.context.data :=
    ⟨fun _ => hnone, fun hne => absurd rfl hne, fun hne => absurd rfl hne⟩
  have hjudged : Judged digest [] [] r.machine.state r.machine.context.data :=
    .of_compared (by simp [hstate]) (by simp [hstate]) hnothing
  have hk := knows w digest s hruled hknows n
  rw [hashedBefore_succ] at hd
  have hj := judged hruled hknows hjudged n hd.left
  have hc := hj.compared hk hn hd
  obtain ⟨before, ts, hH, -⟩ := hj.butOne (Or.inr hn)
  obtain ⟨hevidence, hstagnant⟩ : after.evidence = (boundary w digest s n r).machine.context.data.evidence ∧
      after.stagnant = (compareEvidence digest (boundary w digest s n r).machine.context.data).stagnant := by
    simp only [after, boundary_succ w digest s hruled]
    exact next_compared (hruled.boundary w digest s n) hn
  have hlength : rounds.length = i := by
    have hrounds := hk.rounds (by simp [hn])
    rw [hn] at hrounds
    exact hrounds
  have hgreatest : IsGreatest {k | k < i ∧ ∀ j, i - k < j → j ≤ i → Stale rounds j} after.stagnant := by
    have hstale := hc.stagnant (by simp [hH])
    simp only [StaleFor] at hstale
    rw [hstagnant, ← hlength]
    exact hstale
  refine ⟨hlength, ?_, hgreatest, fun hpos => ?_⟩
  · rw [hevidence, hk.learnt.evidence, foldl_addEvidence]
  · obtain ⟨hlt, hall⟩ := hgreatest.1
    exact hall i (by omega) le_rfl

instance (digest : List UInt8 → List UInt8) (bytes : List (List UInt8)) : Decidable (TellsApart digest bytes) :=
  inferInstanceAs (Decidable (∀ a ∈ bytes, ∀ b ∈ bytes, digest a = digest b → a = b))

/-- tasks that bring a piece of evidence with a zero in it, then its two halves, and then one of them again -/
def halving : World Nat :=
  .inTurn fun k =>
    .ok { Payload.blank with
      evidence := match k with
        | 0 => ["a\x00b"]
        | 1 => ["a", "b"]
        | _ => ["b"] }

/-- the two halves have the bytes of the whole, but they come after it; the round that repeats one of them is stale -/
theorem stagnant_exact_halves :
    evidenceBytes ["a\x00b"] = evidenceBytes ["a", "b"] ∧
      (boundary halving Sha256.digest {} 8 oneTask).machine.state = .evaluate ∧
      (boundary halving Sha256.digest {} (8 + 1) oneTask).machine.context.data.stagnant = 0 ∧
      (boundary halving Sha256.digest {} 12 oneTask).machine.state = .evaluate ∧
      (boundary halving Sha256.digest {} (12 + 1) oneTask).machine.context.data.stagnant = 1 ∧
      Stale (harvested halving Sha256.digest {} 12 oneTask) 3 := by
  have h12 : (boundary halving Sha256.digest {} 12 oneTask).machine.state = .evaluate := by decide +kernel
  have hthree : (boundary halving Sha256.digest {} 12 oneTask).machine.context.data.iteration = 3 := by
    decide +kernel
  have hone : (boundary halving Sha256.digest {} (12 + 1) oneTask).machine.context.data.stagnant = 1 := by
    decide +kernel
  have hapart : TellsApart Sha256.digest (hashedBefore halving Sha256.digest {} (12 + 1) oneTask) := by
    decide +kernel
  obtain ⟨-, -, -, hstale⟩ := stagnant_exact halving Sha256.digest {} .standard "work" 0 false "look" ⟨[]⟩ [] 0 0
    oneTask begin_oneTask 12 h12 hapart
  have hlast := hstale (by rw [hone]; exact Nat.one_pos)
  rw [hthree] at hlast
  exact ⟨by decide +kernel, by decide +kernel, by decide +kernel, h12, hone, hlast⟩

end Foreman.WorkLoop

/-
The parts of a ledger stay in step.

A ledger keeps the standing findings, the ids of all accepted ones and an index of signatures side by side, and an offer
changes them in different places. A finding without a file is put last and not indexed, the first of a signature is put
last and indexed, and one that displaces another takes its place and leaves the index alone, which is right since the two
have one signature. So the index always is what one would read off the standing findings (`places`): each signature with
the place of the one finding that has it. An offer that looks a signature up then finds a place that exists and a finding
of that signature there.

An accepted finding adds its id, which was not there before, and a refused one is counted and leaves no other trace
(`Tallied`). The operations come in any order, single offers between whole lists; a list is its offers one after the other
(`run_eq_after`).

Results:
- `after_indexed`:  the index after any list of offers.
- `tallied_after`:  accepted ids and refusals after any list of offers.
- `parts_in_step`:  what holds of every ledger that operations lead to.
-/
import Mathlib.Tactic
import Foreman.Proofs.Keyed
import Foreman.Proofs.Ledger.Retained
import Foreman.Proofs.Ledger.Vetted

namespace Foreman.Ledger

/-! ## Places of signatures -/

/-- the signatures of findings, each with the place of the finding -/
def places (fs : List Finding) : List (Signature × Nat) :=
  (fs.map Finding.signature).zipIdx.filterMap fun p => p.1.map fun s => (s, p.2)

theorem places_snoc (fs : List Finding) (f : Finding) :
    places (fs ++ [f]) = places fs ++ (f.signature.map fun s => (s, fs.length)).toList := by
  cases hs : f.signature <;> simp [places, List.zipIdx_append, hs]

/-- only signatures matter -/
theorem places_congr {fs gs : List Finding} (h : fs.map Finding.signature = gs.map Finding.signature) :
    places fs = places gs := by
  rw [places, places, h]

theorem mem_places {fs : List Finding} {s : Signature} {i : Nat} :
    (s, i) ∈ places fs ↔ ∃ g, fs[i]? = some g ∧ g.signature = some s := by
  simp [places, List.mem_zipIdx_iff_getElem?, ← and_assoc]

theorem places_keys (fs : List Finding) : (places fs).map Prod.fst = fs.filterMap Finding.signature := by
  induction fs using List.reverseRecOn with
  | nil => rfl
  | append_singleton fs f ih =>
    rw [places_snoc, List.map_append, ih, List.filterMap_append]
    cases hs : f.signature <;> simp [hs]

/-! ## The index -/

/-- the index gives the places of the standing findings -/
def Indexed (l : Ledger) : Prop := l.bySignature = places l.findings

theorem enter_indexed {l : Ledger} (h : l.Sound) (hi : l.Indexed) (f : Finding) : (l.enter f).1.Indexed := by
  unfold Indexed at hi ⊢
  cases hs : f.signature with
  | none => simp [enter, hs, places_snoc, hi]
  | some s =>
    cases hk : l.bySignature.lookup s with
    | none =>
      simp only [enter, hs, hk, Option.bind_none]
      rw [places_snoc, hi, hs]
      rfl
    | some i =>
      have hplace := (h.index s i).1 hk
      obtain ⟨g, hg, -⟩ : ∃ g, l.findings[i]? = some g ∧ g.signature = some s := by
        simpa [List.getElem?_map, Option.map_eq_some_iff] using hplace
      obtain ⟨hlt, hsame⟩ := List.getElem?_eq_some_iff.1 hplace
      simp only [enter, hs, hk, hg, Option.bind_some, Option.map_some]
      split_ifs
      · -- the finding that comes has the signature of the one that goes
        rw [hi]
        apply places_congr
        rw [List.map_set, hs, ← hsame, List.set_getElem_self]
      · exact hi

theorem offer_indexed {l : Ledger} (h : l.Sound) (hi : l.Indexed) (f : Finding) : (l.offer f).1.Indexed := by
  cases ho : l.objection? f with
  | some r =>
    rw [show (l.offer f).1 = { l with rejected := l.rejected + 1 } by simp [offer, ho]]
    exact hi
  | none =>
    rw [show (l.offer f).1 = (l.enter f).1 by simp [offer, ho]]
    exact enter_indexed h hi f

/-- **The index gives the places of the standing findings**, after any list of offers. -/
theorem after_indexed {l : Ledger} (h : l.Sound) (hi : l.Indexed) (fs : List Finding) : (l.after fs).Indexed := by
  induction fs using List.reverseRecOn with
  | nil => exact hi
  | append_singleton fs f ih =>
    rw [after_snoc]
    exact offer_indexed (after_sound h fs) ih f

section Indexed

variable {l : Ledger} (hi : l.Indexed)
include hi

theorem Indexed.mem_iff (s : Signature) (i : Nat) :
    (s, i) ∈ l.bySignature ↔ ∃ g, l.findings[i]? = some g ∧ g.signature = some s := by
  rw [hi, mem_places]

theorem Indexed.keys (h : l.Sound) : (l.bySignature.map Prod.fst).Nodup := by
  rw [hi, places_keys]
  exact h.signatures

theorem Indexed.filed (s : Signature) :
    s ∈ l.bySignature.map Prod.fst ↔ ∃ g ∈ l.findings, g.file ≠ none ∧ g.signature = some s := by
  rw [hi, places_keys, List.mem_filterMap]
  constructor
  · rintro ⟨g, hg, hgs⟩
    have hfile : g.file ≠ none := by
      intro hnone
      rw [(g.signature_eq_none).2 hnone] at hgs
      cases hgs
    exact ⟨g, hg, hfile, hgs⟩
  · rintro ⟨g, hg, -, hgs⟩
    exact ⟨g, hg, hgs⟩

/-- findings of one signature stand in one place, since the index has one for it -/
theorem Indexed.alone (h : l.Sound) {i j : Nat} {g k : Finding} (hg : l.findings[i]? = some g)
    (hk : l.findings[j]? = some k) (hfile : g.file ≠ none) (hsig : g.signature = k.signature) : i = j := by
  obtain ⟨s, hgs⟩ := Option.ne_none_iff_exists'.1 fun hnone => hfile ((g.signature_eq_none).1 hnone)
  have hfirst := Keyed.lookup_of_mem (hi.keys h) ((hi.mem_iff s i).2 ⟨g, hg, hgs⟩)
  have hsecond := Keyed.lookup_of_mem (hi.keys h) ((hi.mem_iff s j).2 ⟨k, hk, hsig.symm.trans hgs⟩)
  exact Option.some.inj (hfirst.symm.trans hsecond)

end Indexed

/-! ## Accepted ids and refusals -/

/-- what offers have added: an id for each accepted finding, and one to the count for each other one -/
structure Tallied (l : Ledger) (fs : List Finding) : Prop where
  seen : (l.after fs).seen = l.seen ++ (l.admitted fs).map Finding.id
  distinct : (l.after fs).seen.Nodup
  rejected : (l.after fs).rejected + (l.admitted fs).length = l.rejected + fs.length

theorem tallied_after {l : Ledger} (h : l.Sound) (hn : l.seen.Nodup) (fs : List Finding) : Tallied l fs := by
  induction fs using List.reverseRecOn with
  | nil => exact ⟨by simp [after_nil, admitted], hn, rfl⟩
  | append_singleton fs f ih =>
    have hcount := ih.rejected
    rcases offer_cases (after_sound h fs) f with ⟨-, r, ho⟩ | ⟨-, hid, l', e, ho, -, -, hseen, hrejected⟩
    · have hadmitted : l.admitted (fs ++ [f]) = l.admitted fs := by simp [admitted_snoc, admitted, ho]
      refine ⟨?_, ?_, ?_⟩
      · rw [after_snoc, ho, hadmitted]
        exact ih.seen
      · rw [after_snoc, ho]
        exact ih.distinct
      · rw [after_snoc, ho, hadmitted, List.length_append, List.length_singleton]
        simp only
        omega
    · have hadmitted : l.admitted (fs ++ [f]) = l.admitted fs ++ [f] := by simp [admitted_snoc, admitted, ho]
      refine ⟨?_, ?_, ?_⟩
      · rw [after_snoc, ho, hadmitted, hseen, ih.seen, List.map_append, List.append_assoc]
        rfl
      · rw [after_snoc, ho, hseen]
        simpa using ih.distinct.concat hid
      · rw [after_snoc, ho, hadmitted, hrejected, List.length_append, List.length_append]
        simp only [List.length_singleton]
        omega

/-- a refused finding leaves no trace but in the count -/
theorem offer_refused {l : Ledger} (h : l.Sound) {f : Finding} {r : Rejection} (hr : (l.offer f).2 = .error r) :
    (l.offer f).1 = { l with rejected := l.rejected + 1 } := by
  rcases offer_cases h f with ⟨-, r', ho⟩ | ⟨-, -, l', e, ho, -⟩
  · rw [ho]
  · rw [ho] at hr
    cases hr

/-! ## Operations -/

/-- an operation on a ledger -/
inductive Op where
  | offer (f : Finding)
  | offerAll (fs : List Finding)

def step (l : Ledger) : Op → Ledger
  | .offer f => (l.offer f).1
  | .offerAll fs => (l.offerAll fs).1

def run (l : Ledger) (ops : List Op) : Ledger := ops.foldl step l

/-- the findings that operations offer, in order -/
def offered (ops : List Op) : List Finding :=
  ops.flatMap fun
    | .offer f => [f]
    | .offerAll fs => fs

theorem run_eq_after (l : Ledger) (ops : List Op) : l.run ops = l.after (offered ops) := by
  induction ops generalizing l with
  | nil => rfl
  | cons op ops ih =>
    show (l.step op).run ops = _
    rw [ih]
    cases op with
    | offer f => exact (l.after_cons f (offered ops)).symm
    | offerAll fs => exact (l.after_append fs (offered ops)).symm

/-- the parts of a ledger agree with each other, and with what it was offered -/
structure InStep (scope : ChangeSet) (ops : List Op) (l : Ledger) : Prop where
  /-- the index has a signature once -/
  keys : (l.bySignature.map Prod.fst).Nodup
  /-- and gives the place of the finding that has it -/
  index : ∀ s i, (s, i) ∈ l.bySignature ↔ ∃ g, l.findings[i]? = some g ∧ g.signature = some s
  /-- it has the signatures of the findings that have a file, and no others -/
  filed : ∀ s, s ∈ l.bySignature.map Prod.fst ↔ ∃ g ∈ l.findings, g.file ≠ none ∧ g.signature = some s
  /-- in no two places stand findings with one signature -/
  alone : ∀ (i j : Nat) (g k : Finding), l.findings[i]? = some g → l.findings[j]? = some k → g.file ≠ none →
    g.signature = k.signature → i = j
  /-- where an offer looks a signature up, it finds a finding that has it -/
  found : ∀ s i, l.bySignature.lookup s = some i → ∃ g, l.findings[i]? = some g ∧ g.signature = some s
  seen : ∀ g ∈ l.findings, g.id ∈ l.seen
  ids : (l.findings.map Finding.id).Nodup
  /-- there is one id for each accepted finding -/
  distinct : l.seen.Nodup
  accepted : l.seen.length = ((empty scope).admitted (offered ops)).length
  rejected : l.rejected + ((empty scope).admitted (offered ops)).length = (offered ops).length
  /-- a refused finding is counted and leaves no other trace -/
  refused : ∀ f r, (l.offer f).2 = .error r → (l.offer f).1 = { l with rejected := l.rejected + 1 }

/-- **The parts of a ledger stay in step**, whatever is done with it. -/
theorem parts_in_step (scope : ChangeSet) (ops : List Op) : InStep scope ops ((empty scope).run ops) := by
  rw [run_eq_after]
  have hs : ((empty scope).after (offered ops)).Sound := after_sound (sound_empty scope) _
  have hi : ((empty scope).after (offered ops)).Indexed := after_indexed (sound_empty scope) rfl _
  have htally : Tallied (empty scope) (offered ops) := tallied_after (sound_empty scope) List.nodup_nil _
  have hcount := htally.rejected
  have hseen : ((empty scope).after (offered ops)).seen.length = ((empty scope).admitted (offered ops)).length := by
    rw [htally.seen]
    simp [empty]
  exact {
    keys := hi.keys hs
    index := hi.mem_iff
    filed := hi.filed
    alone := fun i j g k => hi.alone hs
    found := fun s i hlookup => (hi.mem_iff s i).1 (Keyed.mem_of_lookup hlookup)
    seen := hs.seen
    ids := hs.ids
    distinct := htally.distinct
    accepted := hseen
    rejected := by simpa [empty] using hcount
    refused := fun f r => offer_refused hs }

end Foreman.Ledger

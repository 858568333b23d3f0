/-
What one offer does to a ledger, and what a list of offers does.

The ledger keeps three things that must agree: the standing findings, the ids of all accepted ones, and the place of
each signature. `Sound` says that they do: the index of a signature is the place of the one finding that has it, every
standing id was accepted, and standing ids are distinct. Under it an offer is one of four things (`offer_cases`): it
is refused and only counted, or it is put last, or it takes the place of a less confident finding of its signature, or
it gives way to one. `Entered` lists the last three with what they do to the findings; all that is proved about
ledgers elsewhere goes through these cases and never looks at the index again.
-/
import Mathlib.Tactic
import Foreman.Finding.Ledger
import Foreman.Proofs.Binary64

namespace Foreman

/-- a finding as it is made of a report -/
def Finding.Made (f : Finding) : Prop := ∃ spare r source todoId, f = .ofReport spare r source todoId

theorem Finding.made_of_mem {f : Finding} {next : Nat} {rs : List Report} {source : String} {todoId : Option Ident}
    (h : f ∈ Finding.ofReports next rs source todoId) : f.Made := by
  obtain ⟨i, hi, rfl⟩ := List.mem_mapIdx.1 h
  exact ⟨_, _, _, _, rfl⟩

theorem Finding.todoId_of_mem {f : Finding} {next : Nat} {rs : List Report} {source : String} {todoId : Option Ident}
    (h : f ∈ Finding.ofReports next rs source todoId) : f.todoId = todoId := by
  obtain ⟨i, hi, rfl⟩ := List.mem_mapIdx.1 h
  rfl

theorem Finding.Made.not_nan {f : Finding} (h : f.Made) : f.confidence.isNan = false := by
  obtain ⟨spare, r, source, todoId, rfl⟩ := h
  exact Confidence.ofReport_not_nan r.confidence

theorem Finding.signature_eq_none (f : Finding) : f.signature = none ↔ f.file = none := by
  simp [signature]

theorem Finding.severity_of_signature {f g : Finding} (hn : f.signature ≠ none) (h : f.signature = g.signature) :
    f.severity = g.severity := by
  obtain ⟨a, ha⟩ := Option.ne_none_iff_exists'.1 (fun hf => hn ((signature_eq_none f).2 hf))
  simp only [signature, ha, Option.map_some] at h
  obtain ⟨b, _, hs⟩ := Option.map_eq_some_iff.1 h.symm
  exact (congrArg Signature.severity hs).symm

namespace Ledger

/-! ## Who may be accepted -/

/-- whether a finding lies within the scope: its file is in the change set, or it has none and its evidence names one
-/
def inScope (scope : ChangeSet) (f : Finding) : Bool :=
  match f.file with
  | some file => scope.contains file
  | none => scope.mentionedIn f.evidence

/-- whether a finding may be accepted, apart from its id -/
def qualifies (scope : ChangeSet) (f : Finding) : Bool := !Text.allBlank f.evidence && inScope scope f

theorem objection?_eq_none (l : Ledger) (f : Finding) :
    l.objection? f = none ↔ qualifies l.scope f = true ∧ f.id ∉ l.seen := by
  unfold objection? qualifies inScope
  cases f.file <;> simp <;> split_ifs <;> simp_all

/-! ## The ledger as a whole -/

/-- the parts of a ledger agree: the index gives the place of each signature, standing ids were accepted, and they are
distinct -/
structure Sound (l : Ledger) : Prop where
  index : ∀ s i, l.bySignature.lookup s = some i ↔ (l.findings.map Finding.signature)[i]? = some (some s)
  seen : ∀ g ∈ l.findings, g.id ∈ l.seen
  ids : (l.findings.map Finding.id).Nodup

theorem sound_empty (scope : ChangeSet) : (empty scope).Sound :=
  ⟨fun s i => by simp [empty], by simp [empty], by simp [empty]⟩

theorem Sound.alone {l : Ledger} (h : l.Sound) {pre post : List Finding} {g : Finding}
    (hl : l.findings = pre ++ g :: post) (hg : g.signature ≠ none) :
    ∀ x ∈ pre ++ post, x.signature ≠ g.signature := by
  obtain ⟨s, hs⟩ := Option.ne_none_iff_exists'.1 hg
  have hplace : l.bySignature.lookup s = some pre.length := by
    rw [h.index, hl]; simp [hs]
  intro x hx hxs
  obtain ⟨i, hi, hne⟩ : ∃ i, (l.findings.map Finding.signature)[i]? = some (some s) ∧ i ≠ pre.length := by
    rcases List.mem_append.1 hx with hx | hx
    · obtain ⟨i, hi, rfl⟩ := List.getElem_of_mem hx
      exact ⟨i, by rw [hl]; simp [List.getElem?_append_left, hi, hxs, hs], by omega⟩
    · obtain ⟨i, hi, rfl⟩ := List.getElem_of_mem hx
      refine ⟨pre.length + 1 + i, ?_, by omega⟩
      rw [hl, List.map_append, List.map_cons, List.getElem?_append_right (by simp; omega), List.length_map,
        show pre.length + 1 + i - pre.length = i + 1 by omega]
      simp [hi, hxs, hs]
  rw [← h.index, hplace] at hi
  exact hne (by simpa using hi.symm)

theorem Sound.unique {l : Ledger} (h : l.Sound) {x g : Finding} (hx : x ∈ l.findings) (hg : g ∈ l.findings)
    (hn : g.signature ≠ none) (hs : x.signature = g.signature) : x = g := by
  obtain ⟨pre, post, hl⟩ := List.append_of_mem hg
  rw [hl] at hx
  rcases List.mem_append.1 hx with hx | hx
  · exact absurd hs (h.alone hl hn x (List.mem_append_left _ hx))
  · rcases List.mem_cons.1 hx with hx | hx
    · exact hx
    · exact absurd hs (h.alone hl hn x (List.mem_append_right _ hx))

/-! ## One offer -/

/-- what an accepted finding does to the standing ones, by what became of it -/
inductive Entered (l : Ledger) (f : Finding) (l' : Ledger) : Entry → Prop
  /-- it is put last: it has no file, or no standing finding has its signature -/
  | added (hnew : f.signature = none ∨ ∀ g ∈ l.findings, g.signature ≠ f.signature)
      (hf : l'.findings = l.findings ++ [f]) : Entered l f l' .added
  /-- it takes the place of a less confident finding -/
  | replaced (pre : List Finding) (g : Finding) (post : List Finding) (hl : l.findings = pre ++ g :: post)
      (hn : f.signature ≠ none) (hs : g.signature = f.signature) (hlt : g.confidence.lt f.confidence = true)
      (hf : l'.findings = pre ++ f :: post) : Entered l f l' (.replaced g.id)
  /-- it gives way to a finding that is no less confident -/
  | merged (pre : List Finding) (g : Finding) (post : List Finding) (hl : l.findings = pre ++ g :: post)
      (hn : f.signature ≠ none) (hs : g.signature = f.signature) (hlt : g.confidence.lt f.confidence = false)
      (hf : l'.findings = l.findings) : Entered l f l' (.merged g.id)

theorem Entered.mem {l l' : Ledger} {f : Finding} {e : Entry} (he : Entered l f l' e) {g : Finding}
    (hg : g ∈ l'.findings) : g ∈ l.findings ∨ g = f := by
  rcases he with ⟨-, hf⟩ | ⟨pre, k, post, hl, -, -, -, hf⟩ | ⟨-, k, -, -, -, -, -, hf⟩ <;> rw [hf] at hg
  · simpa using hg
  · rw [hl]
    simp only [List.mem_append, List.mem_cons] at hg ⊢
    tauto
  · exact Or.inl hg

/-- an accepted finding: the scope and the count of refusals stay, its id is accepted, and the findings change as
`Entered` says -/
theorem enter_cases {l : Ledger} (h : l.Sound) (f : Finding) :
    Entered l f (l.enter f).1 (l.enter f).2 ∧ (l.enter f).1.scope = l.scope ∧
      (l.enter f).1.seen = l.seen ++ [f.id] ∧ (l.enter f).1.rejected = l.rejected := by
  cases hs : f.signature with
  | none =>
    simp only [enter, hs]
    exact ⟨.added (Or.inl hs) rfl, by simp⟩
  | some s =>
    cases hk : l.bySignature.lookup s with
    | none =>
      simp only [enter, hs, hk, Option.bind_none]
      refine ⟨.added (Or.inr fun g hg hgs => ?_) rfl, by simp⟩
      obtain ⟨i, hi, rfl⟩ := List.getElem_of_mem hg
      have : l.bySignature.lookup s = some i := by rw [h.index]; simp [hi, hgs, hs]
      rw [hk] at this
      cases this
    | some i =>
      have hi := (h.index s i).1 hk
      obtain ⟨g, hg, hgs⟩ : ∃ g, l.findings[i]? = some g ∧ g.signature = some s := by
        simpa [List.getElem?_map, Option.map_eq_some_iff] using hi
      obtain ⟨hlt, rfl⟩ := List.getElem?_eq_some_iff.1 hg
      have hsplit : l.findings = l.findings.take i ++ l.findings[i] :: l.findings.drop (i + 1) := by
        rw [← List.drop_eq_getElem_cons hlt, List.take_append_drop]
      simp only [enter, hs, hk, hg, Option.bind_some, Option.map_some]
      split_ifs with hc
      · refine ⟨.replaced _ _ _ hsplit (by simp [hs]) (hgs.trans hs.symm) hc ?_, rfl, rfl, rfl⟩
        simp only [List.set_eq_take_append_cons_drop, hlt, if_true]
      · exact ⟨.merged _ _ _ hsplit (by simp [hs]) (hgs.trans hs.symm) (by simpa using hc) rfl, rfl, rfl, rfl⟩

/-- **An offer is refused and counted, or accepted and entered.** -/
theorem offer_cases {l : Ledger} (h : l.Sound) (f : Finding) :
    (¬ (qualifies l.scope f = true ∧ f.id ∉ l.seen) ∧
        ∃ r, l.offer f = ({ l with rejected := l.rejected + 1 }, .error r)) ∨
      (qualifies l.scope f = true ∧ f.id ∉ l.seen ∧
        ∃ l' e, l.offer f = (l', .ok e) ∧ Entered l f l' e ∧ l'.scope = l.scope ∧ l'.seen = l.seen ++ [f.id] ∧
          l'.rejected = l.rejected) := by
  cases ho : l.objection? f with
  | some r =>
    refine Or.inl ⟨fun hq => ?_, r, by simp [offer, ho]⟩
    rw [(objection?_eq_none l f).2 hq] at ho
    cases ho
  | none =>
    obtain ⟨hq, hid⟩ := (objection?_eq_none l f).1 ho
    exact Or.inr ⟨hq, hid, (l.enter f).1, (l.enter f).2, by simp [offer, ho], enter_cases h f⟩

/-! ## The ledger stays sound -/

/-- a place in a list with one more element is an old place or the last one -/
theorem getElem?_snoc {α : Type} (xs : List α) (x y : α) (j : Nat) :
    (xs ++ [x])[j]? = some y ↔ xs[j]? = some y ∨ j = xs.length ∧ x = y := by
  rcases Nat.lt_trichotomy j xs.length with hj | rfl | hj
  · rw [List.getElem?_append_left hj]
    simp [hj.ne]
  · simp
  · rw [List.getElem?_eq_none (by simp; omega), List.getElem?_eq_none (by omega)]
    simp [hj.ne']

theorem lookup_snoc (index : List (Signature × Nat)) (s t : Signature) (i j : Nat) :
    (index ++ [(s, i)]).lookup t = some j ↔ index.lookup t = some j ∨ index.lookup t = none ∧ t = s ∧ i = j := by
  rw [List.lookup_append]
  by_cases ht : t = s
  · subst ht
    cases index.lookup t <;> simp
  · have hts : (t == s) = false := by simpa using ht
    cases index.lookup t <;> simp [List.lookup_cons, hts, ht]

theorem enter_index {l : Ledger} (h : l.Sound) (f : Finding) (t : Signature) (j : Nat) :
    (l.enter f).1.bySignature.lookup t = some j ↔
      ((l.enter f).1.findings.map Finding.signature)[j]? = some (some t) := by
  cases hs : f.signature with
  | none =>
    simp only [enter, hs, List.map_append, List.map_cons, List.map_nil, getElem?_snoc, h.index]
    simp
  | some s =>
    cases hk : l.bySignature.lookup s with
    | none =>
      simp only [enter, hs, hk, Option.bind_none, List.map_append, List.map_cons, List.map_nil, getElem?_snoc,
        lookup_snoc, h.index, List.length_map, Option.some.injEq]
      refine or_congr_right ⟨?_, ?_⟩
      · rintro ⟨-, rfl, rfl⟩
        exact ⟨rfl, rfl⟩
      · rintro ⟨rfl, rfl⟩
        exact ⟨hk, rfl, rfl⟩
    | some i =>
      have hi := (h.index s i).1 hk
      obtain ⟨g, hg, -⟩ : ∃ g, l.findings[i]? = some g ∧ g.signature = some s := by
        simpa [List.getElem?_map, Option.map_eq_some_iff] using hi
      obtain ⟨hlt, his⟩ := List.getElem?_eq_some_iff.1 hi
      simp only [enter, hs, hk, hg, Option.bind_some, Option.map_some]
      split_ifs
      · -- the new finding has the signature of the one it displaces, so the signatures stay in place
        rw [h.index, List.map_set, hs, ← his, List.set_getElem_self]
      · exact h.index t j

theorem Entered.ids {l l' : Ledger} {f : Finding} {e : Entry} (he : Entered l f l' e)
    (hids : (l.findings.map Finding.id).Nodup) (hnew : ∀ g ∈ l.findings, g.id ≠ f.id) :
    (l'.findings.map Finding.id).Nodup := by
  rcases he with ⟨-, hf⟩ | ⟨pre, k, post, hl, -, -, -, hf⟩ | ⟨-, k, -, -, -, -, -, hf⟩ <;> rw [hf]
  · rw [List.map_append, List.nodup_append]
    refine ⟨hids, by simp, ?_⟩
    simpa using hnew
  · rw [hl] at hids hnew
    simp only [List.map_append, List.map_cons, List.nodup_append, List.nodup_cons, List.mem_map, List.mem_cons,
      List.mem_append] at hids hnew ⊢
    grind
  · exact hids

theorem offer_sound {l : Ledger} (h : l.Sound) (f : Finding) : (l.offer f).1.Sound := by
  cases ho : l.objection? f with
  | some r =>
    rw [show (l.offer f).1 = { l with rejected := l.rejected + 1 } by simp [offer, ho]]
    exact ⟨h.index, h.seen, h.ids⟩
  | none =>
    have hid := ((objection?_eq_none l f).1 ho).2
    obtain ⟨he, -, hseen, -⟩ := enter_cases h f
    rw [show (l.offer f).1 = (l.enter f).1 by simp [offer, ho]]
    refine ⟨enter_index h f, fun g hg => ?_, he.ids h.ids fun g hg he => hid (he ▸ h.seen g hg)⟩
    rw [hseen, List.mem_append, List.mem_singleton]
    exact (he.mem hg).imp (h.seen g) (congrArg Finding.id)

/-! ## A list of offers -/

def after (l : Ledger) (fs : List Finding) : Ledger := (l.offerAll fs).1

theorem after_nil (l : Ledger) : l.after [] = l := rfl

theorem offerAll_snoc (l : Ledger) (fs : List Finding) (f : Finding) :
    l.offerAll (fs ++ [f]) = offerNext (l.offerAll fs) f := by
  simp [offerAll]

theorem after_snoc (l : Ledger) (fs : List Finding) (f : Finding) :
    l.after (fs ++ [f]) = ((l.after fs).offer f).1 := by
  simp [after, offerAll_snoc, offerNext]

theorem outcome_snoc (l : Ledger) (fs : List Finding) (f : Finding) :
    (l.offerAll (fs ++ [f])).2 = Outcome.add (l.offerAll fs).2 f.id ((l.after fs).offer f).2 := by
  simp [offerAll_snoc, offerNext, after]

theorem after_append (l : Ledger) (fs gs : List Finding) : l.after (fs ++ gs) = (l.after fs).after gs := by
  induction gs using List.reverseRecOn with
  | nil => simp [after_nil]
  | append_singleton gs f ih => rw [← List.append_assoc, after_snoc, after_snoc, ih]

theorem after_cons (l : Ledger) (f : Finding) (fs : List Finding) : l.after (f :: fs) = (l.offer f).1.after fs :=
  l.after_append [f] fs

/-- **A ledger stays sound under every list of offers.** -/
theorem after_sound {l : Ledger} (h : l.Sound) (fs : List Finding) : (l.after fs).Sound := by
  induction fs using List.reverseRecOn with
  | nil => exact h
  | append_singleton fs f ih => rw [after_snoc]; exact offer_sound ih f

theorem after_scope {l : Ledger} (h : l.Sound) (fs : List Finding) : (l.after fs).scope = l.scope := by
  induction fs using List.reverseRecOn with
  | nil => rfl
  | append_singleton fs f ih =>
    rw [after_snoc]
    rcases offer_cases (after_sound h fs) f with ⟨-, r, ho⟩ | ⟨-, -, l', e, ho, -, hscope, -⟩ <;> rw [ho]
    · exact ih
    · exact hscope.trans ih

end Ledger

end Foreman

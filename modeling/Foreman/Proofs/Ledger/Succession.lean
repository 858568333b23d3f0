/-
Who takes the place of a standing finding.

A batch may displace the holder of one place several times over. The outcome lists the displacements in order, and an id
followed along them leads from each holder of a place to the next. It never strays: an accepted id is new to the whole
history of the ledger, so who was displaced never comes back, and a displacement is never meant for another place. Which
ids lead to a finding that stands is said without the outcome (`Stood`): those that stood at some moment of the batch.

Results:
- `Entered.place`:    a place keeps its holder, or goes to the new finding, which is more confident.
- `chained_offerAll`: where the displacements of a batch lead, from offer to offer.
- `batch_succession`: who stands in the old places after a batch, and what its displacements do to all ids.
-/
import Foreman.Proofs.Ledger.Retained

namespace Foreman.Ledger

/-! ## One accepted finding -/

section Entered

variable {l l' : Ledger} {f g : Finding} {e : Entry}

/-- **A place keeps its holder**, or goes to the new finding if that is more confident and of the same signature. -/
theorem Entered.place (he : Entered l f l' e) (h : l.Sound) {i : Nat} (hg : l.findings[i]? = some g) :
    (e ≠ .replaced g.id ∧ l'.findings[i]? = some g) ∨
      (e = .replaced g.id ∧ l'.findings[i]? = some f ∧ f.signature = g.signature ∧
        g.confidence.lt f.confidence = true) := by
  cases he with
  | added hnew hf =>
    refine Or.inl ⟨by simp, ?_⟩
    rw [hf, List.getElem?_append_left (List.getElem?_eq_some_iff.1 hg).1, hg]
  | merged pre k post hl hn hs hlt hf => exact Or.inl ⟨by simp, by rw [hf, hg]⟩
  | replaced pre k post hl hn hs hlt hf =>
    have hk : l.findings[pre.length]? = some k := by simp [hl]
    by_cases hi : i = pre.length
    · obtain rfl : g = k := by rw [hi, hk] at hg; exact (Option.some.inj hg).symm
      exact Or.inr ⟨rfl, by simp [hf, hi], hs.symm, hlt⟩
    · have hset : l'.findings = l.findings.set pre.length f := by simp [hf, hl]
      refine Or.inl ⟨fun he => hi ?_, by rw [hset, List.getElem?_set_ne (Ne.symm hi), hg]⟩
      -- another place has another id
      have hid : (l.findings.map Finding.id)[i]? = (l.findings.map Finding.id)[pre.length]? := by
        rw [List.getElem?_map, List.getElem?_map, hg, hk, Option.map_some, Option.map_some, Entry.replaced.inj he]
      exact (List.getElem?_inj (by simpa using (List.getElem?_eq_some_iff.1 hg).1) h.ids).1 hid

theorem Entered.displaced (he : Entered l f l' e) {i : Ident} (hi : e = .replaced i) : i ∈ l.standing := by
  subst hi
  cases he with
  | replaced pre k post hl => simp [standing, hl]

end Entered

/-! ## From offer to offer -/

/-- the id stood at some moment of the batch: before it, between two of its offers, or after it -/
def Stood (l : Ledger) (fs : List Finding) (i : Ident) : Prop := ∃ pre, pre <+: fs ∧ i ∈ (l.after pre).standing

theorem stood_snoc (l : Ledger) (fs : List Finding) (f : Finding) (i : Ident) :
    Stood l (fs ++ [f]) i ↔ Stood l fs i ∨ i ∈ (l.after (fs ++ [f])).standing := by
  constructor
  · rintro ⟨pre, hpre, hi⟩
    rcases List.prefix_concat_iff.1 (by simpa using hpre) with rfl | hpre
    · exact Or.inr hi
    · exact Or.inl ⟨pre, hpre, hi⟩
  · rintro (⟨pre, hpre, hi⟩ | hi)
    · exact ⟨pre, hpre.trans (List.prefix_append fs [f]), hi⟩
    · exact ⟨fs ++ [f], List.prefix_refl _, hi⟩

theorem stood_of_standing {l : Ledger} {fs : List Finding} {i : Ident} (hi : i ∈ (l.after fs).standing) :
    Stood l fs i :=
  ⟨fs, List.prefix_refl fs, hi⟩

theorem Sound.standing_seen {l : Ledger} (h : l.Sound) : l.standing ⊆ l.seen := by
  intro i hi
  obtain ⟨g, hg, rfl⟩ := List.mem_map.1 hi
  exact h.seen g hg

theorem Stood.seen {l : Ledger} (h : l.Sound) {fs : List Finding} {i : Ident} (hi : Stood l fs i) :
    i ∈ (l.after fs).seen := by
  obtain ⟨pre, ⟨post, rfl⟩, hi⟩ := hi
  have hpre := after_sound h pre
  rw [after_append]
  exact seen_after hpre post (hpre.standing_seen hi)

/-- `g'` has come to the place of `g`: the displacements lead from the one to the other, and a new holder is newer than
the ledger that `g` stood in, and more confident -/
structure Succeeds (l : Ledger) (pairs : List (Ident × Ident)) (g g' : Finding) : Prop where
  id : g'.id = g.id.follow pairs
  signature : g'.signature = g.signature
  newer : g' = g ∨ g'.id ∉ l.seen ∧ g.confidence.lt g'.confidence = true

/-- where the displacements `pairs` lead that a batch has made so far -/
structure Chained (l : Ledger) (fs : List Finding) (pairs : List (Ident × Ident)) : Prop where
  places : ∀ (i : Nat) (g : Finding), l.findings[i]? = some g →
    ∃ g', (l.after fs).findings[i]? = some g' ∧ Succeeds l pairs g g'
  apart : ∀ p ∈ pairs, p.1 ≠ p.2
  /-- the displaced ids are those that stood and stand no more -/
  displaced : ∀ i, i ∈ pairs.map Prod.fst ↔ Stood l fs i ∧ i ∉ (l.after fs).standing
  /-- an id leads to one that stands exactly if it has stood -/
  leads : ∀ i : Ident, i.follow pairs ∈ (l.after fs).standing ↔ Stood l fs i

theorem chained_nil (l : Ledger) : Chained l [] [] where
  places := fun i g hg => ⟨g, hg, rfl, rfl, Or.inl rfl⟩
  apart := by simp
  displaced := fun i => by simp [Stood, after_nil]
  leads := fun i => by simp [Stood, after_nil, Ident.follow]

section Enter

variable {l l' : Ledger} {fs : List Finding} {f : Finding} {e : Entry} {pairs : List (Ident × Ident)}

theorem Chained.refuse (h : Chained l fs pairs) (hf : (l.after (fs ++ [f])).findings = (l.after fs).findings) :
    Chained l (fs ++ [f]) pairs := by
  have hstanding : (l.after (fs ++ [f])).standing = (l.after fs).standing := by rw [standing, standing, hf]
  have hstood : ∀ i, Stood l (fs ++ [f]) i ↔ Stood l fs i := fun i => by
    rw [stood_snoc, hstanding, or_iff_left_of_imp stood_of_standing]
  refine ⟨?_, h.apart, fun i => ?_, fun i => ?_⟩
  · rw [hf]
    exact h.places
  · rw [hstood, hstanding]
    exact h.displaced i
  · rw [hstood, hstanding]
    exact h.leads i

theorem Succeeds.enter {g k : Finding} {i : Nat} (h : Succeeds l pairs g k) (hl : l.Sound)
    (hid : f.id ∉ (l.after fs).seen) (he : Entered (l.after fs) f l' e) (hk : (l.after fs).findings[i]? = some k) :
    ∃ g', l'.findings[i]? = some g' ∧ Succeeds l (pairs ++ e.moves f.id) g g' := by
  have hfollow : g.id.follow (pairs ++ e.moves f.id) = e.rename f.id k.id := by
    rw [Ident.follow_append, Ident.follow_moves, h.id]
  rcases he.place (after_sound hl fs) hk with ⟨hne, hk'⟩ | ⟨rfl, hf, hsig, hlt⟩
  · exact ⟨k, hk', by rw [hfollow, Entry.rename_of_ne hne], h.signature, h.newer⟩
  · have hlt' : g.confidence.lt f.confidence = true := by
      rcases h.newer with rfl | ⟨-, hgk⟩
      · exact hlt
      · exact Binary64.lt_trans hgk hlt
    exact ⟨f, hf, by rw [hfollow]; simp [Entry.rename], hsig.trans h.signature,
      Or.inr ⟨fun hf => hid (seen_after hl fs hf), hlt'⟩⟩

/-- an accepted finding displaces one holder at most -/
theorem Chained.enter (h : Chained l fs pairs) (hl : l.Sound) (hid : f.id ∉ (l.after fs).seen)
    (he : Entered (l.after fs) f l' e) (hl' : l.after (fs ++ [f]) = l') :
    Chained l (fs ++ [f]) (pairs ++ e.moves f.id) := by
  have hs := after_sound hl fs
  refine ⟨fun i g hg => ?_, fun p hp => ?_, fun i => ?_, fun i => ?_⟩
  · obtain ⟨k, hk, hgk⟩ := h.places i g hg
    rw [hl']
    exact hgk.enter hl hid he hk
  · rcases List.mem_append.1 hp with hp | hp
    · exact h.apart p hp
    · obtain ⟨hdisp, hnew⟩ := Entry.mem_moves.1 hp
      exact fun heq => hid (hnew ▸ heq ▸ hs.standing_seen (he.displaced hdisp))
  · have hmoves : i ∈ (e.moves f.id).map Prod.fst ↔ e = .replaced i := by simp [Entry.mem_moves]
    rw [List.map_append, List.mem_append, h.displaced, hmoves, stood_snoc, hl']
    by_cases hi : Stood l fs i
    · have hstays := he.standing_iff hs hid (hi.seen hl)
      tauto
    · have hnot : e ≠ .replaced i := fun hei => hi (stood_of_standing (he.displaced hei))
      tauto
  · rw [Ident.follow_append, Ident.follow_moves, stood_snoc, hl']
    by_cases hi : Stood l fs i
    · have hin := (h.leads i).2 hi
      exact iff_of_true ((he.rename_standing hs hid (hs.standing_seen hin)).2 hin) (Or.inl hi)
    · -- an id that has not stood is not displaced, so it is followed nowhere
      have hnot : e ≠ .replaced i := fun hei => hi (stood_of_standing (he.displaced hei))
      have hstays : i.follow pairs = i := Ident.follow_of_not_mem fun p hp hpi =>
        hi ((h.displaced i).1 (List.mem_map.2 ⟨p, hp, hpi⟩)).1
      rw [hstays, Entry.rename_of_ne hnot, or_iff_right hi]

end Enter

/-- **Where the displacements of a batch lead.** -/
theorem chained_offerAll {l : Ledger} (h : l.Sound) (fs : List Finding) : Chained l fs (l.offerAll fs).2.replaced := by
  induction fs using List.reverseRecOn with
  | nil => exact chained_nil l
  | append_singleton fs f ih =>
    rw [outcome_snoc]
    rcases offer_cases (after_sound h fs) f with ⟨-, r, ho⟩ | ⟨-, hid, l', e, ho, he, -⟩
    · rw [ho]
      exact ih.refuse (by rw [after_snoc, ho])
    · rw [ho, replaced_add]
      exact ih.enter h hid he (by rw [after_snoc, ho])

/-! ## Who stands at the end -/

/-- what a batch does to those who stood before it, and its displacements to all ids -/
structure Succession (l : Ledger) (fs : List Finding) (pairs : List (Ident × Ident)) : Prop where
  /-- in each old place stands whom the id of its old holder leads to, and only a more confident finding is new there -/
  places : ∀ (i : Nat) (g : Finding), l.findings[i]? = some g → ∃ g', (l.after fs).findings[i]? = some g' ∧
    g'.id = g.id.follow pairs ∧ g'.signature = g.signature ∧ g'.confidence.lt g.confidence = false ∧
    (g'.id ≠ g.id → g.confidence.lt g'.confidence = true) ∧ (g'.id = g.id → g' = g)
  /-- nobody displaces itself -/
  apart : ∀ p ∈ pairs, p.1 ≠ p.2
  /-- the displaced ids are those that stood at some moment of the batch and stand no more -/
  displaced_iff : ∀ i, i ∈ pairs.map Prod.fst ↔ Stood l fs i ∧ i ∉ (l.after fs).standing
  /-- all other ids are left alone -/
  alone : ∀ i : Ident, ¬(Stood l fs i ∧ i ∉ (l.after fs).standing) → i.follow pairs = i
  /-- an id leads to one that stands exactly if it stood at some moment of the batch -/
  leads_iff : ∀ i : Ident, i.follow pairs ∈ (l.after fs).standing ↔ Stood l fs i
  /-- who holds all ids that stood before has those that stand in the old places, and new places come after them -/
  held : (l.standing.map fun i => i.follow pairs) <+: (l.after fs).standing

/-- **The displacements of a batch lead to those who stand**, whatever the ledger was offered before. -/
theorem batch_succession (scope : ChangeSet) (before fs : List Finding) :
    Succession ((empty scope).after before) fs (((empty scope).after before).offerAll fs).2.replaced := by
  have hs := after_sound (sound_empty scope) before
  generalize (empty scope).after before = l at hs
  have h := chained_offerAll hs fs
  refine ⟨fun i g hg => ?_, h.apart, h.displaced, fun i hi => ?_, h.leads, ?_⟩
  · obtain ⟨g', hg', hid, hsig, rfl | ⟨hnew, hlt⟩⟩ := h.places i g hg
    · exact ⟨g', hg', hid, hsig, Binary64.lt_irrefl _, fun hne => absurd rfl hne, fun _ => rfl⟩
    · have hold : g.id ∈ l.seen := hs.seen g (List.mem_of_getElem? hg)
      exact ⟨g', hg', hid, hsig, Binary64.lt_asymm hlt, fun _ => hlt, fun heq => absurd (heq ▸ hold) hnew⟩
  · exact Ident.follow_of_not_mem fun p hp hpi => hi ((h.displaced i).1 (List.mem_map.2 ⟨p, hp, hpi⟩))
  · rw [List.prefix_iff_getElem?]
    intro i hi
    have hlt : i < l.findings.length := by simpa [standing] using hi
    obtain ⟨g', hg', hid, -⟩ := h.places i _ (List.getElem?_eq_getElem hlt)
    simp [standing, hg', hid]

/-- two findings of one batch take one place, one after the other: the id of the first holder leads to the second -/
example :
    let f (name : String) (quarters : Nat) : Finding :=
      { (default : Finding) with
        id := .given name, confidence := Severity.ofQuarters quarters, evidence := "e", file := some "a.py" }
    let l := (empty ⟨["a.py"]⟩).after [f "a" 1]
    let o := (l.offerAll [f "b" 2, f "c" 3]).2
    o.replaced = [(.given "a", .given "b"), (.given "b", .given "c")] ∧
      (Ident.given "a").follow o.replaced = .given "c" ∧ (l.after [f "b" 2, f "c" 3]).standing = [.given "c"] := by
  decide +kernel

end Foreman.Ledger

/-
What the ids that a batch retains stand for.

A batch retains one id for each finding that it accepts, in the order of the offers: the id of the finding that stands for
it at that moment. A later finding of the batch may displace that one, and then the id stands for nothing any more. So the
retained ids stand for their findings at the end exactly if the batch does not overtake itself. What they have been
displaced by is in the outcome too: followed along it, each of them leads to a finding that stands, and has the signature
of the accepted one.

`Accounted` carries this from offer to offer. An id that was displaced never stands again, since no id is accepted twice;
so following all displacements of a batch does no harm to ids that it retained later.

Results:
- `accounted_offerAll`: what the retained and the displaced ids of a batch are.
- `retained_stand`:     which batches retain ids that stand, and where the ids lead to in every batch.
- `retained_displaced`: a batch that retains a displaced id.
-/
import Foreman.Proofs.Ledger.Batch
import Foreman.Proofs.Ledger.Standing

namespace Foreman

/-- an id followed along displacements, one after the other -/
def Ident.follow (i : Ident) (pairs : List (Ident × Ident)) : Ident :=
  pairs.foldl (fun i p => if i = p.1 then p.2 else i) i

theorem Ident.follow_append (i : Ident) (pairs more : List (Ident × Ident)) :
    i.follow (pairs ++ more) = (i.follow pairs).follow more :=
  List.foldl_append

theorem Ident.follow_moves (i new : Ident) (e : Entry) : i.follow (e.moves new) = e.rename new i := by
  cases e <;> rfl

theorem Ident.follow_of_not_mem {i : Ident} {pairs : List (Ident × Ident)} (h : ∀ p ∈ pairs, p.1 ≠ i) :
    i.follow pairs = i := by
  induction pairs with
  | nil => rfl
  | cons p pairs ih =>
    rw [follow, List.foldl_cons, if_neg (h p List.mem_cons_self).symm]
    exact ih fun q hq => h q (List.mem_cons_of_mem _ hq)

namespace Ledger

def admitted (l : Ledger) : List Finding → List Finding
  | [] => []
  | f :: fs =>
    match l.offer f with
    | (l', .ok _) => f :: l'.admitted fs
    | (l', .error _) => l'.admitted fs

theorem admitted_snoc (l : Ledger) (fs : List Finding) (f : Finding) :
    l.admitted (fs ++ [f]) = l.admitted fs ++ (l.after fs).admitted [f] := by
  induction fs generalizing l with
  | nil => rfl
  | cons g fs ih =>
    rw [after_cons]
    cases ho : l.offer g with
    | mk l' r => cases r <;> simp [admitted, ho, ih]

/-- a standing finding has the id, and the signature of the other finding -/
def StandsAs (l : Ledger) (f : Finding) (i : Ident) : Prop := ∃ g ∈ l.findings, g.id = i ∧ g.signature = f.signature

/-- no other finding can stand under the id than one with the signature of the finding -/
def Names (l : Ledger) (f : Finding) (i : Ident) : Prop :=
  i ∈ l.seen ∧ ∀ g ∈ l.findings, g.id = i → g.signature = f.signature

theorem standsAs_iff {l : Ledger} {f : Finding} {i : Ident} (h : l.Names f i) : l.StandsAs f i ↔ i ∈ l.standing := by
  constructor
  · rintro ⟨g, hg, rfl, -⟩
    exact List.mem_map_of_mem hg
  · intro hi
    obtain ⟨g, hg, hgi⟩ := List.mem_map.1 hi
    exact ⟨g, hg, hgi, h.2 g hg hgi⟩

theorem forall₂_standsAs {l : Ledger} {fs : List Finding} {ids : List Ident} (h : List.Forall₂ l.Names fs ids) :
    List.Forall₂ l.StandsAs fs ids ↔ ∀ i ∈ ids, i ∈ l.standing := by
  induction h with
  | nil => simp
  | cons h _ ih => simp [List.forall₂_cons, standsAs_iff h, ih]

/-- the ids in the outcome of a batch, while it goes on: `fs` were accepted -/
structure Accounted (l : Ledger) (fs : List Finding) (o : Outcome) : Prop where
  /-- who was displaced does not stand -/
  gone : ∀ p ∈ o.replaced, p.1 ∈ l.seen ∧ p.1 ∉ l.standing
  /-- one id was retained for each accepted finding, and no other issue can go by it -/
  named : List.Forall₂ l.Names fs o.retained
  /-- followed to whoever has displaced it, it leads to a standing finding of that issue -/
  followed : List.Forall₂ (fun f i => l.StandsAs f (i.follow o.replaced)) fs o.retained

section Enter

variable {l l' : Ledger} {f : Finding} {e : Entry} {fs : List Finding} {o : Outcome}

/-- what an accepted finding displaces does not stand any more, and neither does what was displaced before -/
theorem Accounted.gone_enter (h : Accounted l fs o) (hs : l.Sound) (hid : f.id ∉ l.seen) (he : Entered l f l' e)
    (hseen : l'.seen = l.seen ++ [f.id]) : ∀ p ∈ o.replaced ++ e.moves f.id, p.1 ∈ l'.seen ∧ p.1 ∉ l'.standing := by
  intro p hp
  rw [hseen]
  rcases List.mem_append.1 hp with hp | hp
  · obtain ⟨hold, hnot⟩ := h.gone p hp
    exact ⟨List.mem_append_left _ hold, fun hp => hnot ((he.standing_iff hs hid hold).1 hp).1⟩
  · cases he with
    | added => cases hp
    | merged => cases hp
    | replaced pre g post hl hn hsig hlt hf =>
      obtain rfl : p = (g.id, f.id) := List.mem_singleton.1 hp
      have hold : g.id ∈ l.seen := hs.seen g (by simp [hl])
      have he : Entered l f l' (.replaced g.id) := .replaced pre g post hl hn hsig hlt hf
      exact ⟨List.mem_append_left _ hold, fun hg => ((he.standing_iff hs hid hold).1 hg).2 rfl⟩

theorem Names.enter {k : Finding} {i : Ident} (h : l.Names k i) (hid : f.id ∉ l.seen) (he : Entered l f l' e)
    (hseen : l'.seen = l.seen ++ [f.id]) : l'.Names k i := by
  refine ⟨by rw [hseen]; exact List.mem_append_left _ h.1, fun g hg hgi => ?_⟩
  rcases he.mem hg with hg | rfl
  · exact h.2 g hg hgi
  · exact absurd (hgi ▸ h.1) hid

theorem Accounted.enter (h : Accounted l fs o) (hs : l.Sound) (hs' : l'.Sound) (hid : f.id ∉ l.seen)
    (he : Entered l f l' e) (hseen : l'.seen = l.seen ++ [f.id]) :
    Accounted l' (fs ++ [f]) (Outcome.add o f.id (.ok e)) := by
  obtain ⟨k, hk, hks, hki⟩ := he.keeper
  have hgone := h.gone_enter hs hid he hseen
  refine ⟨?_, ?_, ?_⟩
  · rw [replaced_add]
    exact hgone
  · rw [retained_add]
    refine List.rel_append (h.named.imp fun k i hki => hki.enter hid he hseen) (.cons ⟨?_, ?_⟩ .nil)
    · exact hki ▸ hs'.seen k hk
    · intro g hg hgi
      rw [List.inj_on_of_nodup_map hs'.ids hg hk (hgi.trans hki.symm), hks]
  · rw [retained_add, replaced_add]
    refine List.rel_append (h.followed.imp ?_) (.cons ?_ .nil)
    · rintro x i ⟨g, hg, hgi, hgs⟩
      obtain ⟨y, hy, hys, hyi⟩ := he.follows hs hg
      exact ⟨y, hy, by rw [hyi, hgi, Ident.follow_append, Ident.follow_moves], hys.trans hgs⟩
    · -- the id retained last stands, so none of the displacements is of it
      have hstays : (e.keeps f.id).follow (o.replaced ++ e.moves f.id) = e.keeps f.id :=
        Ident.follow_of_not_mem fun p hp hpk => (hgone p hp).2 (hpk ▸ he.keeps_standing)
      exact ⟨k, hk, hki.trans hstays.symm, hks⟩

end Enter

/-- **What the retained and the displaced ids of a batch are.** -/
theorem accounted_offerAll {l : Ledger} (h : l.Sound) (fs : List Finding) :
    Accounted (l.after fs) (l.admitted fs) (l.offerAll fs).2 := by
  induction fs using List.reverseRecOn with
  | nil => exact ⟨by simp [offerAll], .nil, .nil⟩
  | append_singleton fs f ih =>
    have hs := after_sound h fs
    have hs' := offer_sound hs f
    rw [after_snoc, outcome_snoc, admitted_snoc]
    rcases offer_cases hs f with ⟨-, r, ho⟩ | ⟨-, hid, l', e, ho, he, -, hseen, -⟩
    · simp only [ho, admitted, Outcome.add, List.append_nil]
      exact ⟨ih.gone, ih.named, ih.followed⟩
    · rw [ho] at hs' ⊢
      simp only [ho, admitted]
      exact ih.enter hs hs' hid he hseen

/-! ## Who stands at the end -/

/-- what the retained ids of a batch are worth: one for each accepted finding, in the order of the offers -/
structure Retained (l : Ledger) (fs : List Finding) : Prop where
  /-- as they are, they stand for the accepted findings exactly if the batch does not overtake itself -/
  stand_iff : List.Forall₂ (l.after fs).StandsAs (l.admitted fs) (l.offerAll fs).2.retained ↔ ¬ Overtakes l fs
  /-- followed along the displacements of the batch, they always do -/
  followed : List.Forall₂ (fun f i => (l.after fs).StandsAs f (i.follow (l.offerAll fs).2.replaced)) (l.admitted fs)
    (l.offerAll fs).2.retained

/-- **The retained ids of a batch stand for its accepted findings exactly if it does not overtake itself**, whatever the
ledger was offered before; followed along the displacements of the batch they always do. -/
theorem retained_stand (scope : ChangeSet) (before fs : List Finding) : Retained ((empty scope).after before) fs := by
  have hs := after_sound (sound_empty scope) before
  generalize (empty scope).after before = l at hs
  have hacc := accounted_offerAll hs fs
  refine ⟨?_, hacc.followed⟩
  rw [← (retains_offerAll hs fs).standing]
  exact forall₂_standsAs hacc.named

/-- the second of two reports of one issue displaces the first, whose id is retained all the same -/
theorem retained_displaced :
    let l := (empty ⟨["a.py"]⟩).after echoed
    let o := ((empty ⟨["a.py"]⟩).offerAll echoed).2
    o.retained = [.given "a", .given "b"] ∧ o.replaced = [(.given "a", .given "b")] ∧ l.standing = [.given "b"] ∧
      ¬List.Forall₂ l.StandsAs ((empty ⟨["a.py"]⟩).admitted echoed) o.retained := by
  intro l o
  have hretained : o.retained = [.given "a", .given "b"] := by decide +kernel
  have hstanding : l.standing = [.given "b"] := by decide +kernel
  refine ⟨hretained, by decide +kernel, hstanding, fun hstand => ?_⟩
  have hnamed := (accounted_offerAll (sound_empty ⟨["a.py"]⟩) echoed).named
  have hall := (forall₂_standsAs hnamed).1 hstand (.given "a") (by rw [hretained]; simp)
  have hout : Ident.given "a" ∉ l.standing := by rw [hstanding]; decide
  exact hout hall

end Ledger

end Foreman

/-
What one batch of offers does to ids.

The outcome of a batch names the ids that stood for its accepted findings, each at the time of its own offer, and who
was displaced by whom. An id that was accepted before a later offer stands after it exactly if it stood and was not
displaced by it (`Entered.standing_iff`). So an id retained early in a batch may have been displaced by its end. This
is so exactly when the batch overtakes itself: a finding displaces another one although the batch had accepted one of
its signature.

Results:
- `Entered.rename_standing`: following a displaced id to the new one keeps what stood standing.
- `retains_offerAll`:        all retained ids stand at the end of a batch exactly if it does not overtake itself.
- `Entered.follows`:         a standing finding is followed to one of its signature.
- `after_new`:               who stands after a batch stood before, or is retained.
-/
import Mathlib.Tactic
import Foreman.Proofs.Ledger.Offer

namespace Foreman

/-- the id that an id is to be followed to, once a finding with id `new` was entered -/
def Entry.rename (new : Ident) : Entry → Ident → Ident
  | .replaced previous, i => if i = previous then new else i
  | _, i => i

@[simp] theorem Entry.rename_added (new : Ident) : Entry.added.rename new = id := rfl

@[simp] theorem Entry.rename_merged (new kept : Ident) : (Entry.merged kept).rename new = id := rfl

theorem Entry.rename_of_ne {e : Entry} {i : Ident} (h : e ≠ .replaced i) (new : Ident) : e.rename new i = i := by
  cases e with
  | replaced previous => exact if_neg fun hi => h (by rw [hi])
  | added => rfl
  | merged kept => rfl

/-- who an entry displaced, as a pair to re-point -/
def Entry.moves (new : Ident) : Entry → List (Ident × Ident)
  | .replaced previous => [(previous, new)]
  | _ => []

theorem Entry.mem_moves {e : Entry} {new : Ident} {p : Ident × Ident} :
    p ∈ e.moves new ↔ e = .replaced p.1 ∧ p.2 = new := by
  cases e <;> simp [moves, Prod.ext_iff, eq_comm]

/-- the id that stands for a finding with id `new`, once it was entered -/
def Entry.keeps (new : Ident) : Entry → Ident
  | .merged kept => kept
  | _ => new

namespace Ledger

/-- the ids of the standing findings -/
def standing (l : Ledger) : List Ident := l.findings.map Finding.id

/-! ## One accepted finding -/

section Entered

variable {l l' : Ledger} {f : Finding} {e : Entry}

/-- an accepted id stands on unless the new finding displaced it -/
theorem Entered.standing_iff (he : Entered l f l' e) (h : l.Sound) (hid : f.id ∉ l.seen) {i : Ident}
    (hi : i ∈ l.seen) : i ∈ l'.standing ↔ i ∈ l.standing ∧ e ≠ .replaced i := by
  have hne : i ≠ f.id := fun he => hid (he ▸ hi)
  rcases he with ⟨-, hf⟩ | ⟨pre, g, post, hl, -, -, -, hf⟩ | ⟨-, g, -, -, -, -, -, hf⟩
  · simp [standing, hf, hne]
  · have hids := h.ids
    rw [hl] at hids
    simp only [List.map_append, List.map_cons, List.nodup_append, List.nodup_cons, List.mem_map, List.mem_cons] at hids
    simp only [standing, hf, hl, List.map_append, List.map_cons, List.mem_append, List.mem_cons, List.mem_map, ne_eq,
      Entry.replaced.injEq]
    grind
  · simp [standing, hf]

/-- a finding with the new signature stands, under the id that was kept -/
theorem Entered.keeper (he : Entered l f l' e) :
    ∃ k ∈ l'.findings, k.signature = f.signature ∧ k.id = e.keeps f.id := by
  rcases he with ⟨-, hf⟩ | ⟨pre, g, post, -, -, -, -, hf⟩ | ⟨pre, g, post, hl, -, hs, -, hf⟩
  · exact ⟨f, by simp [hf], rfl, rfl⟩
  · exact ⟨f, by simp [hf], rfl, rfl⟩
  · exact ⟨g, by simp [hf, hl], hs, rfl⟩

theorem Entered.keeps_standing (he : Entered l f l' e) : e.keeps f.id ∈ l'.standing := by
  obtain ⟨k, hk, -, hki⟩ := he.keeper
  exact hki ▸ List.mem_map_of_mem hk

theorem Entered.rename_standing (he : Entered l f l' e) (h : l.Sound) (hid : f.id ∉ l.seen) {i : Ident}
    (hi : i ∈ l.seen) : e.rename f.id i ∈ l'.standing ↔ i ∈ l.standing := by
  by_cases hdisp : e = .replaced i
  · subst hdisp
    have hnew := he.keeps_standing
    cases he with
    | replaced pre g post hl =>
      exact iff_of_true (by simpa [Entry.rename, Entry.keeps] using hnew) (by simp [standing, hl])
  · rw [Entry.rename_of_ne hdisp, he.standing_iff h hid hi]
    exact and_iff_left hdisp

end Entered

/-! ## A batch that overtakes itself -/

/-- the batch has an accepted finding of a signature -/
def Met (l : Ledger) (fs : List Finding) (s : Signature) : Prop :=
  ∃ pre g post, fs = pre ++ g :: post ∧ g.signature = some s ∧ ∃ e, ((l.after pre).offer g).2 = .ok e

/-- a finding of the batch displaces another one, although the batch had met its signature before -/
def Overtakes (l : Ledger) (fs : List Finding) : Prop :=
  ∃ pre f post, fs = pre ++ f :: post ∧ ∃ s, f.signature = some s ∧ Met l pre s ∧
    ∃ previous, ((l.after pre).offer f).2 = .ok (.replaced previous)

/-- a place in a longer list is the last one, or a place in the list -/
theorem exists_split_snoc {P : List Finding → Finding → Prop} {fs : List Finding} {f : Finding} :
    (∃ pre g post, fs ++ [f] = pre ++ g :: post ∧ P pre g) ↔
      (∃ pre g post, fs = pre ++ g :: post ∧ P pre g) ∨ P fs f := by
  constructor
  · rintro ⟨pre, g, post, h, hp⟩
    rcases List.eq_nil_or_concat post with rfl | ⟨post, k, rfl⟩
    · obtain ⟨rfl, hfg⟩ := List.append_inj' h rfl
      rw [List.singleton_inj] at hfg
      exact Or.inr (hfg ▸ hp)
    · rw [List.concat_eq_append, ← List.cons_append, ← List.append_assoc] at h
      exact Or.inl ⟨pre, g, post, (List.append_inj' h rfl).1, hp⟩
  · rintro (⟨pre, g, post, rfl, hp⟩ | hp)
    · exact ⟨pre, g, post ++ [f], by simp, hp⟩
    · exact ⟨fs, f, [], rfl, hp⟩

theorem met_snoc (l : Ledger) (fs : List Finding) (f : Finding) (s : Signature) :
    Met l (fs ++ [f]) s ↔ Met l fs s ∨ f.signature = some s ∧ ∃ e, ((l.after fs).offer f).2 = .ok e :=
  exists_split_snoc (P := fun pre g => g.signature = some s ∧ ∃ e, ((l.after pre).offer g).2 = .ok e)

theorem overtakes_snoc (l : Ledger) (fs : List Finding) (f : Finding) :
    Overtakes l (fs ++ [f]) ↔ Overtakes l fs ∨ ∃ s, f.signature = some s ∧ Met l fs s ∧
      ∃ previous, ((l.after fs).offer f).2 = .ok (.replaced previous) :=
  exists_split_snoc (P := fun pre g => ∃ s, g.signature = some s ∧ Met l pre s ∧
    ∃ previous, ((l.after pre).offer g).2 = .ok (.replaced previous))

/-! ## The retained ids -/

theorem retained_add (o : Outcome) (id : Ident) (e : Entry) :
    (Outcome.add o id (.ok e)).retained = o.retained ++ [e.keeps id] := by
  cases e <;> rfl

theorem replaced_add (o : Outcome) (id : Ident) (e : Entry) :
    (Outcome.add o id (.ok e)).replaced = o.replaced ++ e.moves id := by
  cases e <;> simp [Outcome.add, Entry.moves]

/-- the outcome of a batch: its retained ids were accepted, a standing one is retained if the batch met its signature,
and all of them stand unless the batch overtakes itself -/
structure Retains (l : Ledger) (fs : List Finding) (retained : List Ident) : Prop where
  seen : ∀ i ∈ retained, i ∈ (l.after fs).seen
  met : ∀ x ∈ (l.after fs).findings, ∀ s, x.signature = some s → (x.id ∈ retained ↔ Met l fs s)
  standing : (∀ i ∈ retained, i ∈ (l.after fs).standing) ↔ ¬ Overtakes l fs

theorem retains_nil (l : Ledger) : Retains l [] [] where
  seen := by simp
  met := fun x _ s _ => by simp [Met]
  standing := by simp [Overtakes]

theorem Retains.refuse {l : Ledger} {fs : List Finding} {f : Finding} {retained : List Ident} {r : Rejection}
    (h : Retains l fs retained)
    (ho : (l.after fs).offer f = ({ l.after fs with rejected := (l.after fs).rejected + 1 }, .error r)) :
    Retains l (fs ++ [f]) retained where
  seen := by rw [after_snoc, ho]; exact h.seen
  met := fun x hx s hs => by
    rw [after_snoc, ho] at hx
    rw [met_snoc, ho, h.met x hx s hs]
    simp
  standing := by
    have hno : ¬ ∃ s, f.signature = some s ∧ Met l fs s ∧
        ∃ previous, ((l.after fs).offer f).2 = .ok (.replaced previous) := by simp [ho]
    rw [overtakes_snoc, or_iff_left hno, after_snoc, ho]
    exact h.standing

/-- a retained id is displaced exactly when the batch had met the signature -/
theorem Retains.displaces_iff {l l' : Ledger} {fs : List Finding} {f : Finding} {retained : List Ident} {e : Entry}
    (h : Retains l fs retained) (he : Entered (l.after fs) f l' e) :
    (∀ i ∈ retained, e ≠ .replaced i) ↔
      ¬ ∃ s, f.signature = some s ∧ Met l fs s ∧ ∃ previous, e = .replaced previous := by
  -- only a replacement displaces anyone, and the one displaced has the signature of `f`
  cases he with
  | added => simp
  | merged => simp
  | replaced pre g post hl hn hs =>
    obtain ⟨s, hfs⟩ := Option.ne_none_iff_exists'.1 hn
    have hmet := h.met g (by simp [hl]) s (hs.trans hfs)
    have hout : (∀ i ∈ retained, Entry.replaced g.id ≠ .replaced i) ↔ g.id ∉ retained :=
      ⟨fun h hg => h _ hg rfl, fun hg i hi hgi => hg (by cases hgi; exact hi)⟩
    rw [hout, hmet]
    simp [hfs]

/-- an accepted finding adds the id that stands for it, and may displace a retained one -/
theorem Retains.enter {l l' : Ledger} {fs : List Finding} {f : Finding} {retained : List Ident} {e : Entry}
    (h : Retains l fs retained) (hs : (l.after fs).Sound) (hid : f.id ∉ (l.after fs).seen)
    (ho : (l.after fs).offer f = (l', .ok e)) (he : Entered (l.after fs) f l' e)
    (hseen : l'.seen = (l.after fs).seen ++ [f.id]) : Retains l (fs ++ [f]) (retained ++ [e.keeps f.id]) := by
  have hl' : l.after (fs ++ [f]) = l' := by rw [after_snoc, ho]
  have hs' : l'.Sound := by
    have := offer_sound hs f
    rwa [ho] at this
  obtain ⟨k, hk, hks, hki⟩ := he.keeper
  refine ⟨fun i hi => ?_, fun x hx s hxs => ?_, ?_⟩
  · rw [hl']
    rcases List.mem_append.1 hi with hi | hi
    · rw [hseen]
      exact List.mem_append_left _ (h.seen i hi)
    · rw [List.mem_singleton.1 hi, ← hki]
      exact hs'.seen k hk
  · rw [hl'] at hx
    rw [met_snoc, ho]
    by_cases hfs : f.signature = some s
    · -- the one finding of the new signature has the id that was added
      have hxk : x = k := hs'.unique hx hk (by simp [hks, hfs]) (hxs.trans (hks.trans hfs).symm)
      exact iff_of_true (by simp [hxk, hki]) (Or.inr ⟨hfs, e, rfl⟩)
    · have hxf : x ≠ f := fun h => hfs (h ▸ hxs)
      have hxi : x.id ≠ e.keeps f.id := fun h => by
        have hxk : x = k := List.inj_on_of_nodup_map hs'.ids hx hk (h.trans hki.symm)
        exact hfs (hks.symm.trans (hxk ▸ hxs))
      rw [List.mem_append, List.mem_singleton, or_iff_left hxi, h.met x ((he.mem hx).resolve_right hxf) s hxs,
        or_iff_left fun hf => hfs hf.1]
  · have hstays : (∀ i ∈ retained ++ [e.keeps f.id], i ∈ l'.standing) ↔
        (∀ i ∈ retained, i ∈ (l.after fs).standing) ∧ ∀ i ∈ retained, e ≠ .replaced i := by
      rw [← forall₂_and, List.forall_mem_append, and_iff_left (by simpa using he.keeps_standing)]
      exact forall₂_congr fun i hi => he.standing_iff hs hid (h.seen i hi)
    rw [hl', hstays, h.standing, h.displaces_iff he, ← not_or, overtakes_snoc, ho]
    simp

/-- **All retained ids stand at the end of a batch, unless it overtakes itself.** -/
theorem retains_offerAll {l : Ledger} (h : l.Sound) (fs : List Finding) :
    Retains l fs (l.offerAll fs).2.retained := by
  induction fs using List.reverseRecOn with
  | nil => exact retains_nil l
  | append_singleton fs f ih =>
    have hs := after_sound h fs
    rw [outcome_snoc]
    rcases offer_cases hs f with ⟨-, r, ho⟩ | ⟨-, hid, l', e, ho, he, -, hseen, -⟩
    · rw [ho]
      exact ih.refuse ho
    · rw [ho, retained_add]
      exact ih.enter hs hid ho he hseen

/-! ## Who stands after a batch -/

theorem seen_after {l : Ledger} (h : l.Sound) (fs : List Finding) : l.seen ⊆ (l.after fs).seen := by
  induction fs using List.reverseRecOn with
  | nil => exact fun i hi => hi
  | append_singleton fs f ih =>
    rw [after_snoc]
    rcases offer_cases (after_sound h fs) f with ⟨-, r, ho⟩ | ⟨-, -, l', e, ho, -, -, hseen, -⟩ <;> rw [ho]
    · exact ih
    · rw [hseen]
      exact fun i hi => List.mem_append_left _ (ih hi)

theorem Entered.stays {l l' : Ledger} {f g : Finding} {e : Entry} (he : Entered l f l' e) (hg : g ∈ l.findings)
    (hnot : e ≠ .replaced g.id) : g ∈ l'.findings := by
  rcases he with ⟨-, hf⟩ | ⟨pre, k, post, hl, -, -, -, hf⟩ | ⟨-, k, -, -, -, -, -, hf⟩ <;> rw [hf]
  · exact List.mem_append_left _ hg
  · rw [hl] at hg
    rcases List.mem_append.1 hg with hg | hg
    · exact List.mem_append_left _ hg
    · rcases List.mem_cons.1 hg with rfl | hg
      · exact absurd rfl hnot
      · exact List.mem_append_right _ (List.mem_cons_of_mem _ hg)
  · exact hg

/-- **Who stands after a batch stood before, or is of the batch and retained.** -/
theorem after_new {l : Ledger} (h : l.Sound) (fs : List Finding) :
    ∀ x ∈ (l.after fs).findings, x ∈ l.findings ∨ x ∈ fs ∧ x.id ∈ (l.offerAll fs).2.retained := by
  induction fs using List.reverseRecOn with
  | nil => exact fun x hx => Or.inl hx
  | append_singleton fs f ih =>
    intro x hx
    rw [after_snoc] at hx
    rw [outcome_snoc]
    -- who stood before the last offer is as it was
    have hold : ∀ more, x ∈ (l.after fs).findings → x ∈ l.findings ∨
        x ∈ fs ++ [f] ∧ x.id ∈ (l.offerAll fs).2.retained ++ more := by
      intro more hx
      rcases ih x hx with hx | ⟨hx, hretained⟩
      · exact Or.inl hx
      · exact Or.inr ⟨List.mem_append_left _ hx, List.mem_append_left _ hretained⟩
    rcases offer_cases (after_sound h fs) f with ⟨-, r, ho⟩ | ⟨-, -, l', e, ho, he, -, -, -⟩ <;> rw [ho] at hx ⊢
    · simpa [Outcome.add] using hold [] hx
    · rw [retained_add]
      cases he with
      | added hnew hf =>
        rw [hf] at hx
        rcases List.mem_append.1 hx with hx | hx
        · exact hold _ hx
        · rw [List.mem_singleton.1 hx]
          exact Or.inr ⟨by simp, by simp [Entry.keeps]⟩
      | replaced pre g post hl hn hs hlt hf =>
        rw [hf] at hx
        rcases List.mem_append.1 hx with hx | hx
        · exact hold _ (by simp [hl, hx])
        · rcases List.mem_cons.1 hx with rfl | hx
          · exact Or.inr ⟨by simp, by simp [Entry.keeps]⟩
          · exact hold _ (by simp [hl, hx])
      | merged pre g post hl hn hs hlt hf =>
        rw [hf] at hx
        exact hold _ hx

/-- **A standing finding is followed to one of its signature.** -/
theorem Entered.follows {l l' : Ledger} {f g : Finding} {e : Entry} (he : Entered l f l' e) (h : l.Sound)
    (hg : g ∈ l.findings) : ∃ k ∈ l'.findings, k.signature = g.signature ∧ k.id = e.rename f.id g.id := by
  have hstays : e ≠ .replaced g.id → ∃ k ∈ l'.findings, k.signature = g.signature ∧ k.id = g.id := fun hnot =>
    ⟨g, he.stays hg hnot, rfl, rfl⟩
  cases he with
  | added => exact hstays (by simp)
  | merged => exact hstays (by simp)
  | replaced pre k post hl hn hs hlt hf =>
    simp only [Entry.rename]
    split_ifs with hid
    · have hgk : g = k := List.inj_on_of_nodup_map h.ids hg (by simp [hl]) hid
      exact ⟨f, by simp [hf], by rw [hgk, hs], rfl⟩
    · exact hstays fun heq => hid (Entry.replaced.inj heq).symm

/-- a signature that a batch has met stands after it -/
theorem Met.stands {l : Ledger} (h : l.Sound) {fs : List Finding} {s : Signature} (hm : Met l fs s) :
    ∃ x ∈ (l.after fs).findings, x.signature = some s := by
  induction fs using List.reverseRecOn with
  | nil =>
    obtain ⟨pre, g, post, hsplit, -⟩ := hm
    simp at hsplit
  | append_singleton fs f ih =>
    have hsound := after_sound h fs
    rw [met_snoc] at hm
    rw [after_snoc]
    rcases offer_cases hsound f with ⟨-, r, ho⟩ | ⟨-, -, l', e, ho, he, -, -, -⟩ <;> rw [ho] at hm ⊢
    · apply ih
      rcases hm with hm | ⟨-, e, he⟩
      · exact hm
      · cases he
    · rcases hm with hm | ⟨hf, -⟩
      · obtain ⟨x, hx, hxs⟩ := ih hm
        obtain ⟨k, hk, hks, -⟩ := he.follows hsound hx
        exact ⟨k, hk, hks.trans hxs⟩
      · obtain ⟨k, hk, hks, -⟩ := he.keeper
        exact ⟨k, hk, hks.trans hf⟩

end Ledger

end Foreman

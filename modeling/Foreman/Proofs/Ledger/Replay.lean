/-
Findings that are offered again.

After its first offer a finding is refused for good. If it was refused for its evidence or its scope, the same goes for it
ever after, since neither the finding nor the scope changes. If it was accepted, its id was, and accepted ids are kept even
when the finding itself gave way to another one or was displaced. So a batch of findings that were all offered before only
raises the count of refusals, whatever came in between.

Results:
- `objection?_later`: what a ledger objects to, it objects to for ever, and for the same reason.
- `objection?_again`: why a finding is refused that comes again.
- `replay_refused`:   a batch that comes again, in whole or in part and in any order.
-/
import Foreman.Proofs.Ledger.Batch
import Foreman.Proofs.Ledger.Standing

namespace Foreman.Ledger

variable {l l' : Ledger} {f : Finding}

/-- **An objection stays** as long as the scope does and no accepted id is forgotten. -/
theorem objection?_later (hscope : l'.scope = l.scope) (hseen : l.seen ⊆ l'.seen) {r : Rejection}
    (h : l.objection? f = some r) : l'.objection? f = some r := by
  have hid : l.seen.contains f.id = true → l'.seen.contains f.id = true := by
    simpa using fun hid => hseen hid
  unfold objection? at h ⊢
  rw [hscope]
  cases hfile : f.file <;> simp only [hfile] at h ⊢ <;> grind

theorem objection?_accepted (hq : qualifies l.scope f = true) (hid : f.id ∈ l.seen) :
    l.objection? f = some (.duplicateId f.id) := by
  unfold qualifies inScope at hq
  unfold objection?
  cases hfile : f.file <;> simp_all

/-- why a finding is refused after its first offer: for the reason that it was refused for, or since its id was accepted -/
def again (f : Finding) : Except Rejection Entry → Rejection
  | .error r => r
  | .ok _ => .duplicateId f.id

/-- **A finding that comes again is refused**, however much later. -/
theorem objection?_again (h : l.Sound) (hscope : l'.scope = l.scope) (hseen : (l.offer f).1.seen ⊆ l'.seen) :
    l'.objection? f = some (again f (l.offer f).2) := by
  cases ho : l.objection? f with
  | some r =>
    have hoffer : l.offer f = ({ l with rejected := l.rejected + 1 }, .error r) := by simp [offer, ho]
    rw [hoffer] at hseen ⊢
    exact objection?_later hscope hseen ho
  | none =>
    obtain ⟨hq, -⟩ := (objection?_eq_none l f).1 ho
    have hoffer : l.offer f = ((l.enter f).1, .ok (l.enter f).2) := by simp [offer, ho]
    rw [hoffer] at hseen ⊢
    have hnew : f.id ∈ (l.enter f).1.seen := by
      rw [(enter_cases h f).2.2.1]
      simp
    exact objection?_accepted (hscope ▸ hq) (hseen hnew)

theorem offerAll_refused {gs : List Finding} (h : ∀ g ∈ gs, l.objection? g ≠ none) :
    l.offerAll gs = ({ l with rejected := l.rejected + gs.length }, ⟨[], []⟩) := by
  induction gs using List.reverseRecOn with
  | nil => rfl
  | append_singleton gs g ih =>
    obtain ⟨r, hr⟩ := Option.ne_none_iff_exists'.1 (h g (by simp))
    -- the count of refusals has no say in what the ledger objects to
    have hr' : ({ l with rejected := l.rejected + gs.length } : Ledger).objection? g = some r := hr
    rw [offerAll_snoc, ih fun k hk => h k (by simp [hk])]
    simp [offerNext, offer, hr', Outcome.add, Nat.add_assoc]

/-- **A batch that comes again changes nothing** but the count of refusals, in whole or in part, in any order and after
anything else. Each of its findings is refused for its own reason. -/
theorem replay_refused (scope : ChangeSet) (before fs between gs : List Finding) (hgs : gs ⊆ fs) :
    let l := (((empty scope).after before).after fs).after between
    l.offerAll gs = ({ l with rejected := l.rejected + gs.length }, ⟨[], []⟩) ∧
      ∀ pre g post, fs = pre ++ g :: post →
        (l.offer g).2 = .error (again g ((((empty scope).after before).after pre).offer g).2) := by
  intro l
  have hbefore := after_sound (sound_empty scope) before
  have hobjects : ∀ pre g post, fs = pre ++ g :: post →
      l.objection? g = some (again g ((((empty scope).after before).after pre).offer g).2) := by
    rintro pre g post rfl
    have hpre := after_sound hbefore pre
    have hoffer := offer_sound hpre g
    have hl : l = (((((empty scope).after before).after pre).offer g).1.after post).after between := by
      show ((((empty scope).after before).after (pre ++ g :: post)).after between) = _
      rw [after_append, after_cons]
    refine objection?_again hpre ?_ ?_
    · show ((((empty scope).after before).after (pre ++ g :: post)).after between).scope = _
      rw [after_scope (after_sound hbefore _), after_scope hbefore, after_scope hbefore]
    · rw [hl]
      exact List.Subset.trans (seen_after hoffer post) (seen_after (after_sound hoffer post) between)
  refine ⟨offerAll_refused fun g hg => ?_, fun pre g post hfs => ?_⟩
  · obtain ⟨pre, post, hfs⟩ := List.append_of_mem (hgs hg)
    rw [hobjects pre g post hfs]
    exact Option.some_ne_none _
  · rw [offer, hobjects pre g post hfs]

/-- the first finding was displaced by the second; both are refused, as often as they come -/
theorem replay_refused_echoed :
    let l := (empty ⟨["a.py"]⟩).after echoed
    echoed ++ echoed.reverse ⊆ echoed ∧ l.standing = [.given "b"] ∧
      l.offerAll (echoed ++ echoed.reverse) = ({ l with rejected := 4 }, ⟨[], []⟩) := by
  have hsub : echoed ++ echoed.reverse ⊆ echoed := by simp
  have hstanding : ((empty ⟨["a.py"]⟩).after echoed).standing = [.given "b"] := by decide +kernel
  have hcount : ((empty ⟨["a.py"]⟩).after echoed).rejected + (echoed ++ echoed.reverse).length = 4 := by decide +kernel
  have hreplay := (replay_refused ⟨["a.py"]⟩ [] echoed [] (echoed ++ echoed.reverse) hsub).1
  rw [after_nil, after_nil, hcount] at hreplay
  exact ⟨hsub, hstanding, hreplay⟩

end Foreman.Ledger

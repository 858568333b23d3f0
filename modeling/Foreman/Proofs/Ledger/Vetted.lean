/-
What stands in a ledger.

An offer lets in nothing but findings that qualify, and the index keeps apart what has one signature. So whatever was
offered to an empty ledger, what stands in it has evidence and lies within the scope, and stands once.

Results:
- `Sound.signatures`: no signature stands twice.
- `vetted_after`:     everything that stands qualifies, after any list of offers.
-/
import Foreman.Proofs.Ledger.Offer

namespace Foreman.Ledger

/-- **No signature stands twice**: the index would have to give both places -/
theorem Sound.signatures {l : Ledger} (h : l.Sound) : (l.findings.filterMap Finding.signature).Nodup := by
  rw [List.Nodup, List.pairwise_filterMap, List.pairwise_iff_getElem]
  intro i j hi hj hij s hs t ht hst
  subst hst
  have hfirst : l.bySignature.lookup s = some i := by
    rw [h.index]
    simp [hi, hs]
  have hsecond : l.bySignature.lookup s = some j := by
    rw [h.index]
    simp [hj, ht]
  rw [hfirst, Option.some.injEq] at hsecond
  omega

/-- every standing finding qualifies: it has evidence, and lies within the scope -/
def Vetted (l : Ledger) : Prop := ∀ f ∈ l.findings, qualifies l.scope f = true

theorem vetted_empty (scope : ChangeSet) : (empty scope).Vetted := by simp [Vetted, empty]

theorem Vetted.offer {l : Ledger} (hv : l.Vetted) (h : l.Sound) (f : Finding) : (l.offer f).1.Vetted := by
  rcases offer_cases h f with ⟨-, r, ho⟩ | ⟨hq, -, l', e, ho, he, hscope, -⟩
  · rw [ho]
    exact hv
  · rw [ho]
    intro g hg
    rw [hscope]
    rcases he.mem hg with hg | rfl
    · exact hv g hg
    · exact hq

/-- **Everything that stands qualifies.** -/
theorem vetted_after (scope : ChangeSet) (fs : List Finding) : ((empty scope).after fs).Vetted := by
  induction fs using List.reverseRecOn with
  | nil => exact vetted_empty scope
  | append_singleton fs f ih =>
    rw [after_snoc]
    exact ih.offer (after_sound (sound_empty scope) fs) f

end Foreman.Ledger

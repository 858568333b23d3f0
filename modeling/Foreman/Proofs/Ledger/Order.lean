/-
The order in which findings are offered.

Which of two equally confident findings of a signature stands depends on who came first, so two orders need not leave
the same ledger. What does not depend on the order is stated by `Covers`: how many findings were refused, which ones
without a file stand, which signatures stand, and that nothing is more confident than what stands for its signature.
Two ledgers covered from the same start by the same findings, apart from their ids, agree in all that an assessment
can see.

Results:
- `covers_after`: a ledger covers the fresh findings that it was offered.
- `agree_after`:  two lists of fresh findings that are the same apart from order and ids leave ledgers that agree.
-/
import Mathlib.Tactic
import Foreman.Proofs.Assessment
import Foreman.Proofs.Ledger.Offer

namespace Foreman

/-- a finding without its id -/
def Finding.unnamed (f : Finding) : Finding := { f with id := .minted 0 }

def Finding.fileless (f : Finding) : Bool := f.file.isNone

theorem Finding.fileless_iff (f : Finding) : f.fileless = true ↔ f.signature = none := by
  rw [signature_eq_none, fileless, Option.isNone_iff_eq_none]

/-- in a list that is the same apart from order and ids every finding has a counterpart -/
theorem Finding.counterpart {fs gs : List Finding} (h : (fs.map unnamed).Perm (gs.map unnamed)) {f : Finding}
    (hf : f ∈ fs) : ∃ g ∈ gs, g.unnamed = f.unnamed := by
  have : f.unnamed ∈ gs.map unnamed := h.subset (List.mem_map_of_mem hf)
  exact List.mem_map.1 this

theorem Finding.signature_of_unnamed {f g : Finding} (h : g.unnamed = f.unnamed) : g.signature = f.signature :=
  (congrArg signature h : g.unnamed.signature = f.unnamed.signature)

theorem Finding.confidence_of_unnamed {f g : Finding} (h : g.unnamed = f.unnamed) : g.confidence = f.confidence :=
  (congrArg confidence h : g.unnamed.confidence = f.unnamed.confidence)

namespace Ledger

theorem qualifies_of_unnamed (scope : ChangeSet) {f g : Finding} (h : g.unnamed = f.unnamed) :
    qualifies scope g = qualifies scope f :=
  (congrArg (qualifies scope) h : qualifies scope g.unnamed = qualifies scope f.unnamed)

/-! ## One accepted finding -/

section Entered

variable {l l' : Ledger} {f : Finding} {e : Entry}

theorem Entered.old (he : Entered l f l' e) {g : Finding} (hg : g ∈ l.findings) :
    ∃ g' ∈ l'.findings, g'.signature = g.signature ∧ (g' = g ∨ g.confidence.lt g'.confidence = true) := by
  rcases he with ⟨-, hf⟩ | ⟨pre, k, post, hl, -, hs, hlt, hf⟩ | ⟨-, k, -, -, -, -, -, hf⟩ <;> rw [hf]
  · exact ⟨g, by simp [hg], rfl, Or.inl rfl⟩
  · rw [hl] at hg
    by_cases hgk : g = k
    · exact ⟨f, by simp, by rw [hgk, hs], Or.inr (hgk ▸ hlt)⟩
    · refine ⟨g, ?_, rfl, Or.inl rfl⟩
      simp only [List.mem_append, List.mem_cons] at hg ⊢
      tauto
  · exact ⟨g, hg, rfl, Or.inl rfl⟩

theorem Entered.new (he : Entered l f l' e) :
    ∃ g ∈ l'.findings, g.signature = f.signature ∧ g.confidence.lt f.confidence = false := by
  rcases he with ⟨-, hf⟩ | ⟨pre, k, post, hl, -, -, -, hf⟩ | ⟨pre, k, post, hl, -, hs, hlt, hf⟩ <;> rw [hf]
  · exact ⟨f, by simp, rfl, Binary64.lt_irrefl _⟩
  · exact ⟨f, by simp, rfl, Binary64.lt_irrefl _⟩
  · exact ⟨k, by simp [hl], hs, hlt⟩

/-- the findings without a file all stay, and the new one joins them if it has none -/
theorem Entered.fileless (he : Entered l f l' e) :
    l'.findings.filter Finding.fileless = l.findings.filter Finding.fileless ++ [f].filter Finding.fileless := by
  have hfile : ∀ g : Finding, g.signature ≠ none → g.fileless = false := fun g hg => by
    rw [Bool.eq_false_iff]
    exact fun h => hg ((Finding.fileless_iff g).1 h)
  rcases he with ⟨-, hf⟩ | ⟨pre, k, post, hl, hn, hs, -, hf⟩ | ⟨pre, k, post, -, hn, -, -, hf⟩ <;> rw [hf]
  · rw [List.filter_append]
  · rw [hl]
    simp [List.filter_append, hfile f hn, hfile k (hs ▸ hn)]
  · simp [hfile f hn]

end Entered

/-! ## Fresh findings -/

/-- findings that are made of reports, whose ids are new and distinct -/
structure Fresh (l : Ledger) (fs : List Finding) : Prop where
  made : ∀ f ∈ fs, f.Made
  ids : (fs.map Finding.id).Nodup
  unseen : ∀ f ∈ fs, f.id ∉ l.seen

theorem after_seen {l : Ledger} (h : l.Sound) (fs : List Finding) :
    (l.after fs).seen ⊆ l.seen ++ fs.map Finding.id := by
  induction fs using List.reverseRecOn with
  | nil => simp [after_nil]
  | append_singleton fs f ih =>
    rw [after_snoc, List.map_append, ← List.append_assoc]
    rcases offer_cases (after_sound h fs) f with ⟨-, r, ho⟩ | ⟨-, -, l', e, ho, -, -, hseen, -⟩ <;> rw [ho]
    · exact fun i hi => List.mem_append_left _ (ih hi)
    · intro i hi
      rw [show (l', Except.ok e).1 = l' from rfl, hseen] at hi
      rcases List.mem_append.1 hi with hi | hi
      · exact List.mem_append_left _ (ih hi)
      · exact List.mem_append_right _ (by simpa using hi)

theorem Fresh.init {l : Ledger} {fs : List Finding} {f : Finding} (hf : Fresh l (fs ++ [f])) : Fresh l fs where
  made := fun g hg => hf.made g (by simp [hg])
  ids := by
    have := hf.ids
    rw [List.map_append] at this
    exact (List.nodup_append.1 this).1
  unseen := fun g hg => hf.unseen g (by simp [hg])

theorem Fresh.perm {l : Ledger} {fs gs : List Finding} (hf : Fresh l fs) (h : fs.Perm gs) : Fresh l gs where
  made := fun f hg => hf.made f (h.mem_iff.2 hg)
  ids := (h.map _).nodup_iff.1 hf.ids
  unseen := fun f hg => hf.unseen f (h.mem_iff.2 hg)

theorem Fresh.last {l : Ledger} (h : l.Sound) {fs : List Finding} {f : Finding} (hf : Fresh l (fs ++ [f])) :
    f.id ∉ (l.after fs).seen := by
  intro hid
  rcases List.mem_append.1 (after_seen h fs hid) with hid | hid
  · exact hf.unseen f (by simp) hid
  · have hids := hf.ids
    rw [List.map_append, List.nodup_append] at hids
    exact hids.2.2 _ hid _ (by simp) rfl

/-! ## What no order changes -/

/-- the ledger `l'` is what `l` becomes by the findings `fs`, as far as that does not depend on their order -/
structure Covers (l : Ledger) (fs : List Finding) (l' : Ledger) : Prop where
  rejected : l'.rejected = l.rejected + fs.countP fun f => !qualifies l.scope f
  fileless : l'.findings.filter Finding.fileless =
    l.findings.filter Finding.fileless ++ (fs.filter (qualifies l.scope)).filter Finding.fileless
  source : ∀ g ∈ l'.findings, g ∈ l.findings ∨ g ∈ fs ∧ qualifies l.scope g = true
  old : ∀ h ∈ l.findings, ∃ g ∈ l'.findings, g.signature = h.signature ∧
    (g = h ∨ h.confidence.lt g.confidence = true)
  new : ∀ f ∈ fs, qualifies l.scope f = true → ∃ g ∈ l'.findings, g.signature = f.signature ∧
    g.confidence.lt f.confidence = false

theorem covers_nil (l : Ledger) : Covers l [] l :=
  ⟨by simp, by simp, fun g hg => Or.inl hg, fun h hh => ⟨h, hh, rfl, Or.inl rfl⟩, by simp⟩

theorem Covers.refuse {l l' : Ledger} {fs : List Finding} {f : Finding} (h : Covers l fs l')
    (hq : qualifies l.scope f = false) : Covers l (fs ++ [f]) { l' with rejected := l'.rejected + 1 } where
  rejected := by simp [h.rejected, hq]; omega
  fileless := by simp [h.fileless, hq]
  source := fun g hg => (h.source g hg).imp_right fun hg => ⟨by simp [hg.1], hg.2⟩
  old := h.old
  new := fun g hg hgq => by
    rcases List.mem_append.1 hg with hg | hg
    · exact h.new g hg hgq
    · rw [List.mem_singleton.1 hg, hq] at hgq
      cases hgq

theorem Covers.enter {l l' l'' : Ledger} {fs : List Finding} {f : Finding} {e : Entry} (h : Covers l fs l')
    (hq : qualifies l.scope f = true) (he : Entered l' f l'' e) (hrej : l''.rejected = l'.rejected) :
    Covers l (fs ++ [f]) l'' where
  rejected := by simp [hrej, h.rejected, hq]
  fileless := by rw [he.fileless, h.fileless]; simp [hq]
  source := fun g hg => by
    rcases he.mem hg with hg | rfl
    · exact (h.source g hg).imp_right fun hg => ⟨by simp [hg.1], hg.2⟩
    · exact Or.inr ⟨by simp, hq⟩
  old := fun k hk => by
    obtain ⟨g, hg, hgs, hgk⟩ := h.old k hk
    obtain ⟨g', hg', hgs', hgg'⟩ := he.old hg
    refine ⟨g', hg', hgs'.trans hgs, ?_⟩
    rcases hgk with rfl | hgk
    · exact hgg'
    · rcases hgg' with rfl | hgg'
      · exact Or.inr hgk
      · exact Or.inr (Binary64.lt_trans hgk hgg')
  new := fun k hk hkq => by
    rcases List.mem_append.1 hk with hk | hk
    · obtain ⟨g, hg, hgs, hgk⟩ := h.new k hk hkq
      obtain ⟨g', hg', hgs', hgg'⟩ := he.old hg
      refine ⟨g', hg', hgs'.trans hgs, ?_⟩
      rcases hgg' with rfl | hgg'
      · exact hgk
      · by_contra hc
        have hlt := Binary64.lt_trans hgg' (by simpa using hc)
        rw [hgk] at hlt
        cases hlt
    · rw [List.mem_singleton.1 hk]
      exact he.new

/-- **A ledger covers the fresh findings that it was offered.** -/
theorem covers_after {l : Ledger} (h : l.Sound) {fs : List Finding} (hf : Fresh l fs) : Covers l fs (l.after fs) := by
  induction fs using List.reverseRecOn with
  | nil => exact covers_nil l
  | append_singleton fs f ih =>
    have hcov := ih hf.init
    have hscope := after_scope h fs
    rw [after_snoc]
    rcases offer_cases (after_sound h fs) f with ⟨hno, r, ho⟩ | ⟨hq, -, l', e, ho, he, -, -, hrej⟩ <;> rw [ho]
    · refine hcov.refuse ?_
      rw [hscope] at hno
      by_contra hc
      exact hno ⟨by simpa using hc, hf.last h⟩
    · exact hcov.enter (hscope ▸ hq) he hrej

/-! ## Ledgers that agree -/

/-- two ledgers are the same in all that an assessment can see -/
structure Agree (l₁ l₂ : Ledger) : Prop where
  rejected : l₁.rejected = l₂.rejected
  fileless : ((l₁.findings.filter Finding.fileless).map Finding.unnamed).Perm
    ((l₂.findings.filter Finding.fileless).map Finding.unnamed)
  signatures : ∀ s, (∃ g ∈ l₁.findings, g.signature = some s) ↔ ∃ g ∈ l₂.findings, g.signature = some s
  /-- equal confidences; a nan, which equals nothing, only as the same finding -/
  confidence : ∀ g₁ ∈ l₁.findings, ∀ g₂ ∈ l₂.findings, g₁.signature ≠ none → g₁.signature = g₂.signature →
    g₁ = g₂ ∨ g₁.confidence.equal g₂.confidence = true
  verdict : ∀ threshold,
    (Assessment.ofFindings l₁.findings threshold).SameVerdict (Assessment.ofFindings l₂.findings threshold)

section Agree

variable {l l₁ l₂ : Ledger} {fs₁ fs₂ : List Finding}

theorem Covers.signature_iff (h : Covers l fs₁ l₁) (s : Signature) :
    (∃ g ∈ l₁.findings, g.signature = some s) ↔
      (∃ g ∈ l.findings, g.signature = some s) ∨ ∃ f ∈ fs₁, qualifies l.scope f = true ∧ f.signature = some s := by
  constructor
  · rintro ⟨g, hg, hs⟩
    rcases h.source g hg with hg | hg
    · exact Or.inl ⟨g, hg, hs⟩
    · exact Or.inr ⟨g, hg.1, hg.2, hs⟩
  · rintro (⟨g, hg, hs⟩ | ⟨f, hf, hq, hs⟩)
    · obtain ⟨k, hk, hks, -⟩ := h.old g hg
      exact ⟨k, hk, hks.trans hs⟩
    · obtain ⟨k, hk, hks, -⟩ := h.new f hf hq
      exact ⟨k, hk, hks.trans hs⟩

/-- nothing that stands in one ledger is more confident than what stands for its signature in the other -/
theorem Covers.not_lt (h₁ : Covers l fs₁ l₁) (h₂ : Covers l fs₂ l₂) (hs₂ : l₂.Sound)
    (hfs : (fs₁.map Finding.unnamed).Perm (fs₂.map Finding.unnamed)) {g₁ g₂ : Finding} (hg₁ : g₁ ∈ l₁.findings)
    (hg₂ : g₂ ∈ l₂.findings) (hn : g₁.signature ≠ none) (hs : g₁.signature = g₂.signature) :
    g₂.confidence.lt g₁.confidence = false := by
  -- `g₁` stood before and was met by both lists, or it is new and has a counterpart in the second list
  rcases h₁.source g₁ hg₁ with hold | ⟨hnew, hq⟩
  · obtain ⟨k, hk, hks, hlt⟩ := h₂.old g₁ hold
    obtain rfl := hs₂.unique hk hg₂ (hs ▸ hn) (hks.trans hs)
    rcases hlt with rfl | hlt
    · exact Binary64.lt_irrefl _
    · exact Binary64.lt_asymm hlt
  · obtain ⟨f, hf, hfg⟩ := Finding.counterpart hfs hnew
    obtain ⟨k, hk, hks, hlt⟩ := h₂.new f hf ((qualifies_of_unnamed _ hfg).trans hq)
    have hfs := Finding.signature_of_unnamed hfg
    obtain rfl := hs₂.unique hk hg₂ (hs ▸ hn) (hks.trans (hfs.trans hs))
    rwa [Finding.confidence_of_unnamed hfg] at hlt

/-- a standing nan was there before, and nothing takes its place -/
theorem Covers.eq_of_nan (h₁ : Covers l fs₁ l₁) (h₂ : Covers l fs₂ l₂) (hs₂ : l₂.Sound) (hmade : ∀ f ∈ fs₁, f.Made)
    {g₁ g₂ : Finding} (hg₁ : g₁ ∈ l₁.findings) (hg₂ : g₂ ∈ l₂.findings) (hn : g₁.signature ≠ none)
    (hs : g₁.signature = g₂.signature) (hnan : g₁.confidence.isNan = true) : g₁ = g₂ := by
  rcases h₁.source g₁ hg₁ with hold | ⟨hnew, -⟩
  · obtain ⟨k, hk, hks, hlt⟩ := h₂.old g₁ hold
    obtain rfl := hs₂.unique hk hg₂ (hs ▸ hn) (hks.trans hs)
    rcases hlt with rfl | hlt
    · rfl
    · rw [(Binary64.not_nan_of_lt hlt).1] at hnan
      cases hnan
  · rw [(hmade g₁ hnew).not_nan] at hnan
    cases hnan

theorem Covers.confidence (h₁ : Covers l fs₁ l₁) (h₂ : Covers l fs₂ l₂) (hs₁ : l₁.Sound) (hs₂ : l₂.Sound)
    (hfs : (fs₁.map Finding.unnamed).Perm (fs₂.map Finding.unnamed)) (hm₁ : ∀ f ∈ fs₁, f.Made)
    (hm₂ : ∀ f ∈ fs₂, f.Made) {g₁ g₂ : Finding} (hg₁ : g₁ ∈ l₁.findings) (hg₂ : g₂ ∈ l₂.findings)
    (hn : g₁.signature ≠ none) (hs : g₁.signature = g₂.signature) :
    g₁ = g₂ ∨ g₁.confidence.equal g₂.confidence = true := by
  cases hn₁ : g₁.confidence.isNan with
  | true => exact Or.inl (h₁.eq_of_nan h₂ hs₂ hm₁ hg₁ hg₂ hn hs hn₁)
  | false =>
    cases hn₂ : g₂.confidence.isNan with
    | true => exact Or.inl (h₂.eq_of_nan h₁ hs₁ hm₂ hg₂ hg₁ (hs ▸ hn) hs.symm hn₂).symm
    | false =>
      have h21 := h₁.not_lt h₂ hs₂ hfs hg₁ hg₂ hn hs
      have h12 := h₂.not_lt h₁ hs₁ hfs.symm hg₂ hg₁ (hs ▸ hn) hs.symm
      rw [Binary64.lt_eq_not_le hn₂ hn₁] at h21
      rw [Binary64.lt_eq_not_le hn₁ hn₂] at h12
      exact Or.inr (by simp only [Binary64.equal, Bool.and_eq_true]; exact ⟨by simpa using h21, by simpa using h12⟩)

/-- a finding with its signature, which says which finding of a ledger it is -/
private def keyed (g : Finding) : Option Signature × (Severity × Option (Int × Int)) := (g.signature, g.grade)

/-- the findings of a ledger that have a file -/
def filed (l : Ledger) : List Finding := l.findings.filter fun g => !g.fileless

theorem mem_filed {g : Finding} : g ∈ filed l ↔ g ∈ l.findings ∧ g.signature ≠ none := by
  simp [filed, ← Finding.fileless_iff]

theorem nodup_keyed (h : l.Sound) : ((filed l).map keyed).Nodup := by
  refine List.Nodup.map_on (fun x hx y hy hxy => ?_) (h.ids.of_map.filter _)
  have hs : x.signature = y.signature := congrArg Prod.fst hxy
  obtain ⟨hx, -⟩ := mem_filed.1 hx
  obtain ⟨hy, hn⟩ := mem_filed.1 hy
  exact h.unique hx hy hn hs

/-- the findings with a file have the same grades when each signature has the same -/
theorem filed_grades (hs₁ : l₁.Sound) (hs₂ : l₂.Sound)
    (hsig : ∀ s, (∃ g ∈ l₁.findings, g.signature = some s) ↔ ∃ g ∈ l₂.findings, g.signature = some s)
    (hgrade : ∀ g₁ ∈ l₁.findings, ∀ g₂ ∈ l₂.findings, g₁.signature ≠ none → g₁.signature = g₂.signature →
      g₁.grade = g₂.grade) :
    ((filed l₁).map Finding.grade).Perm ((filed l₂).map Finding.grade) := by
  have hkeyed : ((filed l₁).map keyed).Perm ((filed l₂).map keyed) := by
    rw [List.perm_ext_iff_of_nodup (nodup_keyed hs₁) (nodup_keyed hs₂)]
    intro p
    simp only [List.mem_map, mem_filed]
    constructor
    · rintro ⟨g, ⟨hg, hn⟩, rfl⟩
      obtain ⟨s, hs⟩ := Option.ne_none_iff_exists'.1 hn
      obtain ⟨k, hk, hks⟩ := (hsig s).1 ⟨g, hg, hs⟩
      have hgk := hs.trans hks.symm
      exact ⟨k, ⟨hk, hgk ▸ hn⟩, by rw [keyed, keyed, hgk, hgrade g hg k hk hn hgk]⟩
    · rintro ⟨g, ⟨hg, hn⟩, rfl⟩
      obtain ⟨s, hs⟩ := Option.ne_none_iff_exists'.1 hn
      obtain ⟨k, hk, hks⟩ := (hsig s).2 ⟨g, hg, hs⟩
      have hkg := hks.trans hs.symm
      exact ⟨k, ⟨hk, hkg ▸ hn⟩, by rw [keyed, keyed, hkg, hgrade k hk g hg (hkg ▸ hn) hkg]⟩
  have hsnd := hkeyed.map Prod.snd
  rwa [List.map_map, List.map_map] at hsnd

/-- the same grades on both sides: the findings without a file are the same ones, the others have the same grades -/
theorem grades_perm (hless : ((l₁.findings.filter Finding.fileless).map Finding.unnamed).Perm
      ((l₂.findings.filter Finding.fileless).map Finding.unnamed))
    (hfiled : ((filed l₁).map Finding.grade).Perm ((filed l₂).map Finding.grade)) :
    (l₁.findings.map Finding.grade).Perm (l₂.findings.map Finding.grade) := by
  have hgrade : ∀ fs : List Finding, (fs.map Finding.unnamed).map Finding.grade = fs.map Finding.grade := fun fs => by
    rw [List.map_map]; rfl
  have hsplit : ∀ l : Ledger, (l.findings.map Finding.grade).Perm
      ((l.findings.filter Finding.fileless).map Finding.grade ++ (filed l).map Finding.grade) := fun l => by
    rw [← List.map_append]
    exact ((List.filter_append_perm _ _).map _).symm
  have hless := hless.map Finding.grade
  rw [hgrade, hgrade] at hless
  exact (hsplit l₁).trans ((hless.append hfiled).trans (hsplit l₂).symm)

theorem Covers.rejected_eq (h₁ : Covers l fs₁ l₁) (h₂ : Covers l fs₂ l₂)
    (hfs : (fs₁.map Finding.unnamed).Perm (fs₂.map Finding.unnamed)) : l₁.rejected = l₂.rejected := by
  have hcount : ∀ fs : List Finding, (fs.countP fun f => !qualifies l.scope f) =
      (fs.map Finding.unnamed).countP fun f => !qualifies l.scope f := fun fs => by
    rw [List.countP_map]; rfl
  rw [h₁.rejected, h₂.rejected, hcount fs₁, hcount fs₂, hfs.countP_eq]

theorem Covers.fileless_perm (h₁ : Covers l fs₁ l₁) (h₂ : Covers l fs₂ l₂)
    (hfs : (fs₁.map Finding.unnamed).Perm (fs₂.map Finding.unnamed)) :
    ((l₁.findings.filter Finding.fileless).map Finding.unnamed).Perm
      ((l₂.findings.filter Finding.fileless).map Finding.unnamed) := by
  have hfilter : ∀ fs : List Finding, ((fs.filter (qualifies l.scope)).filter Finding.fileless).map Finding.unnamed =
      ((fs.map Finding.unnamed).filter (qualifies l.scope)).filter Finding.fileless := fun fs => by
    rw [List.filter_map, List.filter_map]; rfl
  rw [h₁.fileless, h₂.fileless, List.map_append, List.map_append, hfilter, hfilter]
  exact ((hfs.filter _).filter _).append_left _

theorem Covers.signatures_subset (h₁ : Covers l fs₁ l₁) (h₂ : Covers l fs₂ l₂)
    (hfs : (fs₁.map Finding.unnamed).Perm (fs₂.map Finding.unnamed)) {s : Signature}
    (h : ∃ g ∈ l₁.findings, g.signature = some s) : ∃ g ∈ l₂.findings, g.signature = some s := by
  rw [h₂.signature_iff]
  refine ((h₁.signature_iff s).1 h).imp_right ?_
  rintro ⟨f, hf, hq, hs⟩
  obtain ⟨g, hg, hgf⟩ := Finding.counterpart hfs hf
  exact ⟨g, hg, (qualifies_of_unnamed _ hgf).trans hq, (Finding.signature_of_unnamed hgf).trans hs⟩

/-- **The order of fresh findings does not matter to an assessment.** Two lists of them that are the same apart from
order and ids leave ledgers that agree. -/
theorem agree_after (h : l.Sound) (hf₁ : Fresh l fs₁) (hf₂ : Fresh l fs₂)
    (hfs : (fs₁.map Finding.unnamed).Perm (fs₂.map Finding.unnamed)) : Agree (l.after fs₁) (l.after fs₂) := by
  have h₁ := covers_after h hf₁
  have h₂ := covers_after h hf₂
  have hs₁ := after_sound h fs₁
  have hs₂ := after_sound h fs₂
  have hsig : ∀ s, (∃ g ∈ (l.after fs₁).findings, g.signature = some s) ↔
      ∃ g ∈ (l.after fs₂).findings, g.signature = some s :=
    fun s => ⟨h₁.signatures_subset h₂ hfs, h₂.signatures_subset h₁ hfs.symm⟩
  have hconf : ∀ g₁ ∈ (l.after fs₁).findings, ∀ g₂ ∈ (l.after fs₂).findings, g₁.signature ≠ none →
      g₁.signature = g₂.signature → g₁ = g₂ ∨ g₁.confidence.equal g₂.confidence = true :=
    fun g₁ hg₁ g₂ hg₂ hn hs => h₁.confidence h₂ hs₁ hs₂ hfs hf₁.made hf₂.made hg₁ hg₂ hn hs
  have hgrade : ∀ g₁ ∈ (l.after fs₁).findings, ∀ g₂ ∈ (l.after fs₂).findings, g₁.signature ≠ none →
      g₁.signature = g₂.signature → g₁.grade = g₂.grade := by
    intro g₁ hg₁ g₂ hg₂ hn hs
    rcases hconf g₁ hg₁ g₂ hg₂ hn hs with rfl | heq
    · rfl
    · rw [Finding.grade, Finding.grade, Finding.severity_of_signature hn hs, ((Binary64.equal_iff _ _).1 heq).1]
  have hless := h₁.fileless_perm h₂ hfs
  exact
    { rejected := h₁.rejected_eq h₂ hfs
      fileless := hless
      signatures := hsig
      confidence := hconf
      verdict := Assessment.verdict_congr (grades_perm hless (filed_grades hs₁ hs₂ hsig hgrade)) }

theorem fileless_after (h : l.Sound) (hf : Fresh l fs₁) (hfs : fs₁.Perm fs₂) :
    ((l.after fs₁).findings.filter Finding.fileless).Perm ((l.after fs₂).findings.filter Finding.fileless) := by
  rw [(covers_after h hf).fileless, (covers_after h (hf.perm hfs)).fileless]
  exact ((hfs.filter _).filter _).append_left _

end Agree

end Ledger

end Foreman

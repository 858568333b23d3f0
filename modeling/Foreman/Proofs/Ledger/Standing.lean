/-
What stands in a ledger, read off the findings offered to it.

A ledger works step by step: it remembers ids, finds the place of a signature, and writes over findings in place. Here
the same is said without a ledger. A finding is accepted if it qualifies and no earlier accepted one has its id. Among
the accepted ones the leads are those without a file and the first of each signature; a lead without a file stands for
itself, any other one is stood for by the earliest of the most confident accepted findings of its signature.

The proof carries `Tracks` through the list of offers. A new lead extends the list; any other offer can only change
who stands for the one lead of its signature, which is what replacing in place does.

Results:
- `best?_snoc_first`, `best?_snoc_better`, `best?_snoc_kept`: the best of a signature after one more finding.
- `tracks_after`: the ledger keeps track of the accepted findings.
- `after_standing`: acceptance, refusals and standing findings of a ledger, for every list of offers.
-/
import Mathlib.Tactic
import Foreman.Proofs.Ledger.Offer

namespace Foreman

namespace Ledger

/-! ## Without a ledger -/

def accepts (scope : ChangeSet) (as : List Finding) (f : Finding) : Bool :=
  qualifies scope f && !(as.map Finding.id).contains f.id

/-- the accepted ones of a list of findings, in order -/
def accepted (scope : ChangeSet) (fs : List Finding) : List Finding :=
  fs.foldl (fun as f => if accepts scope as f then as ++ [f] else as) []

/-- a finding that needs a place of its own after `as`: it has no file, or is the first of its signature -/
def Leading (as : List Finding) (f : Finding) : Prop := f.signature = none ∨ ∀ g ∈ as, g.signature ≠ f.signature

instance (as : List Finding) (f : Finding) : Decidable (Leading as f) := by unfold Leading; infer_instance

/-- the leads of a list: the findings without a file and the first one of each signature -/
def leads (as : List Finding) : List Finding :=
  (as.zipIdx.filter fun p => Leading (as.take p.2) p.1).map Prod.fst

/-- whether a finding is a most confident one of a signature -/
def isBest (as : List Finding) (s : Signature) (g : Finding) : Bool :=
  g.signature == some s && as.all fun h => h.signature != some s || h.confidence.le g.confidence

/-- the earliest of the most confident findings of a signature -/
def best? (as : List Finding) (s : Signature) : Option Finding := as.find? (isBest as s)

/-- who stands for a lead -/
def standsFor (as : List Finding) (f : Finding) : Option Finding :=
  match f.signature with
  | none => some f
  | some s => best? as s

/-! ## One more finding -/

theorem accepted_snoc (scope : ChangeSet) (fs : List Finding) (f : Finding) :
    accepted scope (fs ++ [f]) =
      if accepts scope (accepted scope fs) f then accepted scope fs ++ [f] else accepted scope fs := by
  rw [accepted, List.foldl_append]
  rfl

theorem accepted_subset (scope : ChangeSet) (fs : List Finding) : accepted scope fs ⊆ fs := by
  induction fs using List.reverseRecOn with
  | nil => simp [accepted]
  | append_singleton fs f ih =>
    rw [accepted_snoc]
    split_ifs
    · intro g hg
      rcases List.mem_append.1 hg with hg | hg
      · exact List.mem_append_left _ (ih hg)
      · exact List.mem_append_right _ hg
    · exact fun g hg => List.mem_append_left _ (ih hg)

theorem leads_snoc (as : List Finding) (f : Finding) :
    leads (as ++ [f]) = leads as ++ if Leading as f then [f] else [] := by
  have hold : (as.zipIdx.filter fun p => decide (Leading ((as ++ [f]).take p.2) p.1)) =
      as.zipIdx.filter fun p => decide (Leading (as.take p.2) p.1) := by
    refine List.filter_congr fun p hp => ?_
    have : p.2 < as.length := by simpa using (List.mem_zipIdx hp).2.1
    rw [List.take_append_of_le_length this.le]
  rw [leads, leads, List.zipIdx_append, List.filter_append, hold, List.map_append]
  congr 1
  simp only [Nat.zero_add, List.zipIdx_cons, List.zipIdx_nil, List.filter_cons, List.filter_nil, List.take_left]
  split_ifs <;> simp_all

theorem leads_subset (as : List Finding) : leads as ⊆ as := by
  intro f hf
  obtain ⟨p, hp, rfl⟩ := List.mem_map.1 hf
  exact List.mem_of_getElem? (List.mem_zipIdx_iff_getElem?.1 (List.mem_filter.1 hp).1)

/-! ## The best of a signature -/

theorem isBest_iff (as : List Finding) (s : Signature) (g : Finding) :
    isBest as s g = true ↔ g.signature = some s ∧
      ∀ h ∈ as, h.signature = some s → h.confidence.le g.confidence = true := by
  simp [isBest, imp_iff_not_or]

theorem best?_mem {as : List Finding} {s : Signature} {g : Finding} (h : best? as s = some g) :
    g ∈ as ∧ g.signature = some s :=
  ⟨List.mem_of_find?_eq_some h, ((isBest_iff as s g).1 (List.find?_some h)).1⟩

theorem lt_best {as : List Finding} (hnan : ∀ h ∈ as, h.confidence.isNan = false) {s : Signature} {g h : Finding}
    (hg : isBest as s g = true) (hmem : g ∈ as) (hh : h ∈ as) (hhs : h.signature = some s)
    (hnot : isBest as s h = false) : h.confidence.lt g.confidence = true := by
  rw [Binary64.lt_eq_not_le (hnan h hh) (hnan g hmem)]
  by_contra hc
  have hgh : g.confidence.le h.confidence = true := by simpa using hc
  have hbest : isBest as s h = true := (isBest_iff as s h).2
    ⟨hhs, fun k hk hks => Binary64.le_trans (((isBest_iff as s g).1 hg).2 k hk hks) hgh⟩
  rw [hnot] at hbest
  cases hbest

/-- the best of a signature is more confident than the earlier ones of it, and no later one is more confident -/
theorem best?_split {as : List Finding} (hnan : ∀ h ∈ as, h.confidence.isNan = false) {s : Signature} {g : Finding}
    (h : best? as s = some g) : ∃ pre post, as = pre ++ g :: post ∧ g.signature = some s ∧
      (∀ h ∈ pre, h.signature = some s → h.confidence.lt g.confidence = true) ∧
      ∀ h ∈ post, h.signature = some s → g.confidence.lt h.confidence = false := by
  obtain ⟨hg, pre, post, has, hpre⟩ := List.find?_eq_some_iff_append.1 h
  obtain ⟨hgs, hle⟩ := (isBest_iff as s g).1 hg
  have hmem : g ∈ as := by simp [has]
  refine ⟨pre, post, has, hgs, fun h hh hhs => ?_, fun h hh hhs => ?_⟩
  · exact lt_best hnan hg hmem (by simp [has, hh]) hhs (by simpa using hpre h hh)
  · have hh : h ∈ as := by simp [has, hh]
    rw [Binary64.lt_eq_not_le (hnan g hmem) (hnan h hh), hle h hh hhs]
    rfl

theorem best?_of_split {as pre post : List Finding} (hnan : ∀ h ∈ as, h.confidence.isNan = false) {s : Signature}
    {g : Finding} (has : as = pre ++ g :: post) (hgs : g.signature = some s)
    (hpre : ∀ h ∈ pre, h.signature = some s → h.confidence.lt g.confidence = true)
    (hpost : ∀ h ∈ post, h.signature = some s → g.confidence.lt h.confidence = false) : best? as s = some g := by
  have hgn := hnan g (by simp [has])
  have hbest : isBest as s g = true := by
    refine (isBest_iff as s g).2 ⟨hgs, fun h hh hhs => ?_⟩
    have hhn := hnan h hh
    rw [has] at hh
    rcases List.mem_append.1 hh with hh | hh
    · exact Binary64.le_of_lt (hpre h hh hhs)
    · rcases List.mem_cons.1 hh with rfl | hh
      · exact Binary64.le_refl hgn
      · have := hpost h hh hhs
        rw [Binary64.lt_eq_not_le hgn hhn] at this
        simpa using this
  refine List.find?_eq_some_iff_append.2 ⟨hbest, pre, post, has, fun h hh => ?_⟩
  simp only [Bool.not_eq_true', Bool.eq_false_iff]
  intro hb
  obtain ⟨hhs, hle⟩ := (isBest_iff as s h).1 hb
  have hlt := hpre h hh hhs
  rw [Binary64.lt_eq_not_le (hnan h (by simp [has, hh])) hgn, hle g (by simp [has]) hgs] at hlt
  cases hlt

theorem best?_snoc_other (as : List Finding) {f : Finding} {s : Signature} (hf : f.signature ≠ some s) :
    best? (as ++ [f]) s = best? as s := by
  have h : isBest (as ++ [f]) s = isBest as s := by
    funext g
    simp [isBest, bne_iff_ne.2 hf]
  have hnot : isBest as s f = false := by simp [isBest, hf]
  rw [best?, best?, h, List.find?_append, List.find?_singleton, hnot]
  simp

theorem best?_snoc_first {as : List Finding} {f : Finding} {s : Signature}
    (hnan : ∀ h ∈ as ++ [f], h.confidence.isNan = false) (hf : f.signature = some s)
    (hnew : ∀ g ∈ as, g.signature ≠ some s) : best? (as ++ [f]) s = some f :=
  best?_of_split hnan rfl hf (fun h hh hhs => absurd hhs (hnew h hh)) (by simp)

theorem best?_snoc_better {as : List Finding} {f g : Finding} {s : Signature}
    (hnan : ∀ h ∈ as ++ [f], h.confidence.isNan = false) (hf : f.signature = some s) (hg : best? as s = some g)
    (hlt : g.confidence.lt f.confidence = true) : best? (as ++ [f]) s = some f := by
  refine best?_of_split hnan rfl hf (fun h hh hhs => ?_) (by simp)
  have hle := ((isBest_iff as s g).1 (List.find?_some hg)).2 h hh hhs
  exact Binary64.lt_of_le_of_lt hle hlt

theorem best?_snoc_kept {as : List Finding} {f g : Finding} {s : Signature}
    (hnan : ∀ h ∈ as ++ [f], h.confidence.isNan = false) (hg : best? as s = some g)
    (hlt : g.confidence.lt f.confidence = false) : best? (as ++ [f]) s = some g := by
  have has : ∀ h ∈ as, h.confidence.isNan = false := fun h hh => hnan h (by simp [hh])
  obtain ⟨pre, post, rfl, hgs, hpre, hpost⟩ := best?_split has hg
  refine best?_of_split hnan (List.append_assoc pre (g :: post) [f]) hgs hpre fun h hh hhs => ?_
  rcases List.mem_append.1 hh with hh | hh
  · exact hpost h hh hhs
  · rw [List.mem_singleton.1 hh]; exact hlt

theorem exists_best {as : List Finding} (hnan : ∀ h ∈ as, h.confidence.isNan = false) {s : Signature} {f : Finding}
    (hf : f ∈ as) (hs : f.signature = some s) : ∃ g, best? as s = some g := by
  induction as using List.reverseRecOn generalizing f with
  | nil => simp at hf
  | append_singleton as k ih =>
    have has : ∀ h ∈ as, h.confidence.isNan = false := fun h hh => hnan h (by simp [hh])
    by_cases hk : k.signature = some s
    · by_cases hold : ∃ h ∈ as, h.signature = some s
      · obtain ⟨h, hh, hhs⟩ := hold
        obtain ⟨g, hg⟩ := ih has hh hhs
        cases hlt : g.confidence.lt k.confidence with
        | true => exact ⟨k, best?_snoc_better hnan hk hg hlt⟩
        | false => exact ⟨g, best?_snoc_kept hnan hg hlt⟩
      · exact ⟨k, best?_snoc_first hnan hk fun h hh hhs => hold ⟨h, hh, hhs⟩⟩
    · rcases List.mem_append.1 hf with hf | hf
      · rw [best?_snoc_other as hk]
        exact ih has hf hs
      · rw [List.mem_singleton.1 hf] at hs
        exact absurd hs hk

theorem exists_lead {as : List Finding} {s : Signature} {f : Finding} (hf : f ∈ as) (hs : f.signature = some s) :
    ∃ e ∈ leads as, e.signature = some s := by
  induction as using List.reverseRecOn generalizing f with
  | nil => simp at hf
  | append_singleton as k ih =>
    rw [leads_snoc]
    by_cases hold : ∃ h ∈ as, h.signature = some s
    · obtain ⟨h, hh, hhs⟩ := hold
      obtain ⟨e, he, hes⟩ := ih hh hhs
      exact ⟨e, List.mem_append_left _ he, hes⟩
    · have hfk : f = k := by
        rcases List.mem_append.1 hf with hf | hf
        · exact absurd ⟨f, hf, hs⟩ hold
        · exact List.mem_singleton.1 hf
      subst hfk
      have hlead : Leading as f := Or.inr fun g hg hgs => hold ⟨g, hg, hgs.trans hs⟩
      exact ⟨f, by simp [hlead], hs⟩

/-! ## The ledger keeps track -/

/-- a ledger in scope `scope` agrees with the accepted findings `as` of `n` offered ones -/
structure Tracks (scope : ChangeSet) (as : List Finding) (n : Nat) (l : Ledger) : Prop where
  scope_eq : l.scope = scope
  seen : l.seen = as.map Finding.id
  rejected : l.rejected + as.length = n
  findings : l.findings.map some = (leads as).map (standsFor as)

theorem tracks_empty (scope : ChangeSet) : Tracks scope [] 0 (empty scope) :=
  ⟨rfl, rfl, rfl, by simp [empty, leads]⟩

theorem Tracks.standing {scope : ChangeSet} {as : List Finding} {n : Nat} {l : Ledger} (h : Tracks scope as n l)
    {g : Finding} (hg : some g ∈ (leads as).map (standsFor as)) : g ∈ l.findings := by
  rw [← h.findings] at hg
  simpa using hg

theorem Tracks.best {scope : ChangeSet} {as : List Finding} {n : Nat} {l : Ledger} (h : Tracks scope as n l)
    {s : Signature} {g : Finding} (hg : best? as s = some g) : g ∈ l.findings := by
  obtain ⟨hmem, hgs⟩ := best?_mem hg
  obtain ⟨e, he, hes⟩ := exists_lead hmem hgs
  exact h.standing (List.mem_map.2 ⟨e, he, by simp [standsFor, hes, hg]⟩)

theorem Tracks.best_of_mem {scope : ChangeSet} {as : List Finding} {n : Nat} {l : Ledger} (h : Tracks scope as n l)
    {s : Signature} {g : Finding} (hg : g ∈ l.findings) (hs : g.signature = some s) : best? as s = some g := by
  have hmem : some g ∈ (leads as).map (standsFor as) := by
    rw [← h.findings]
    exact List.mem_map_of_mem hg
  obtain ⟨e, -, he⟩ := List.mem_map.1 hmem
  cases hes : e.signature with
  | none =>
    simp only [standsFor, hes, Option.some.injEq] at he
    rw [he, hs] at hes
    cases hes
  | some t =>
    simp only [standsFor, hes] at he
    have ht := (best?_mem he).2
    rw [hs] at ht
    cases ht
    exact he

theorem standsFor_signature {as : List Finding} {e g : Finding} (h : standsFor as e = some g) :
    g.signature = e.signature := by
  unfold standsFor at h
  cases hes : e.signature with
  | none => simp only [hes, Option.some.injEq] at h; rw [← h, hes]
  | some s => simp only [hes] at h; exact (best?_mem h).2

theorem standsFor_snoc_other (as : List Finding) {e f : Finding}
    (h : f.signature = none ∨ e.signature ≠ f.signature) : standsFor (as ++ [f]) e = standsFor as e := by
  unfold standsFor
  cases hes : e.signature with
  | none => rfl
  | some s =>
    refine best?_snoc_other as fun hf => ?_
    rcases h with h | h
    · rw [h] at hf; cases hf
    · exact h (hes.trans hf.symm)

/-- a lead of its own stands for itself, and everyone else is stood for as before -/
theorem Tracks.enter_added {scope : ChangeSet} {as : List Finding} {n : Nat} {l : Ledger} {f : Finding}
    (h : Tracks scope as n l) (hnan : ∀ h ∈ as ++ [f], h.confidence.isNan = false)
    (hnew : f.signature = none ∨ ∀ g ∈ l.findings, g.signature ≠ f.signature) :
    (l.findings ++ [f]).map some = (leads (as ++ [f])).map (standsFor (as ++ [f])) := by
  have has : ∀ h ∈ as, h.confidence.isNan = false := fun h hh => hnan h (by simp [hh])
  have hnone : f.signature = none ∨ ∀ g ∈ as, g.signature ≠ f.signature := by
    by_cases hn : f.signature = none
    · exact Or.inl hn
    · obtain ⟨s, hs⟩ := Option.ne_none_iff_exists'.1 hn
      refine Or.inr fun g hg hgs => ?_
      obtain ⟨k, hk⟩ := exists_best has hg (hgs.trans hs)
      exact hnew.resolve_left hn k (h.best hk) ((best?_mem hk).2.trans hs.symm)
  have hlead : Leading as f := hnone
  have hself : standsFor (as ++ [f]) f = some f := by
    unfold standsFor
    cases hs : f.signature with
    | none => rfl
    | some s => exact best?_snoc_first hnan hs (by simpa [hs] using hnone)
  have hold : (leads as).map (standsFor (as ++ [f])) = (leads as).map (standsFor as) :=
    List.map_congr_left fun e he =>
      standsFor_snoc_other as (hnone.imp_right fun hnone => hnone e (leads_subset as he))
  rw [leads_snoc, if_pos hlead, List.map_append, List.map_append, h.findings, hold]
  simp [hself]

/-- a more confident finding takes over as the one that stands for the lead of its signature -/
theorem Tracks.enter_replaced {scope : ChangeSet} {as : List Finding} {n : Nat} {l : Ledger} {f g : Finding}
    {pre post : List Finding} (h : Tracks scope as n l) (hl : l.Sound)
    (hnan : ∀ h ∈ as ++ [f], h.confidence.isNan = false) (hsplit : l.findings = pre ++ g :: post)
    (hn : f.signature ≠ none) (hs : g.signature = f.signature) (hlt : g.confidence.lt f.confidence = true) :
    (pre ++ f :: post).map some = (leads as).map (standsFor (as ++ [f])) := by
  -- writing `f` over `g` is writing it over everything of its signature
  let write (x : Finding) : Finding := if x.signature = f.signature then f else x
  have hwrite : pre ++ f :: post = l.findings.map write := by
    have halone := hl.alone hsplit (hs ▸ hn)
    have hpre : ∀ x ∈ pre, write x = x := fun x hx =>
      if_neg fun hxs => halone x (List.mem_append_left _ hx) (hxs.trans hs.symm)
    have hpost : ∀ x ∈ post, write x = x := fun x hx =>
      if_neg fun hxs => halone x (List.mem_append_right _ hx) (hxs.trans hs.symm)
    rw [hsplit, List.map_append, List.map_cons, List.map_congr_left hpre, List.map_congr_left hpost,
      show write g = f from if_pos hs, List.map_id', List.map_id']
  obtain ⟨s, hfs⟩ := Option.ne_none_iff_exists'.1 hn
  have hbest : best? as s = some g := h.best_of_mem (by simp [hsplit]) (hs.trans hfs)
  have hstands : ∀ e ∈ leads as, (standsFor as e).map write = standsFor (as ++ [f]) e := by
    intro e he
    by_cases hef : e.signature = f.signature
    · simp only [standsFor, hef, hfs, hbest, best?_snoc_better hnan hfs hbest hlt, Option.map_some]
      rw [show write g = f from if_pos hs]
    · rw [standsFor_snoc_other as (Or.inr hef)]
      cases hk : standsFor as e with
      | none => rfl
      | some k =>
        have hks : k.signature = e.signature := standsFor_signature hk
        rw [Option.map_some, show write k = k from if_neg fun hkf => hef (hks.symm.trans hkf)]
  calc (pre ++ f :: post).map some = (l.findings.map some).map (Option.map write) := by
        rw [hwrite, List.map_map, List.map_map]; rfl
    _ = (leads as).map fun e => (standsFor as e).map write := by rw [h.findings, List.map_map]; rfl
    _ = (leads as).map (standsFor (as ++ [f])) := List.map_congr_left hstands

theorem Tracks.enter_merged {scope : ChangeSet} {as : List Finding} {n : Nat} {l : Ledger} {f g : Finding}
    (h : Tracks scope as n l) (hnan : ∀ h ∈ as ++ [f], h.confidence.isNan = false) (hg : g ∈ l.findings)
    (hn : f.signature ≠ none) (hs : g.signature = f.signature) (hlt : g.confidence.lt f.confidence = false) :
    l.findings.map some = (leads as).map (standsFor (as ++ [f])) := by
  obtain ⟨s, hfs⟩ := Option.ne_none_iff_exists'.1 hn
  have hbest : best? as s = some g := h.best_of_mem hg (hs.trans hfs)
  rw [h.findings]
  refine List.map_congr_left fun e _ => ?_
  by_cases hef : e.signature = f.signature
  · simp only [standsFor, hef, hfs, hbest, best?_snoc_kept hnan hbest hlt]
  · rw [standsFor_snoc_other as (Or.inr hef)]

theorem Tracks.enter {scope : ChangeSet} {as : List Finding} {n : Nat} {l l' : Ledger} {f : Finding} {e : Entry}
    (h : Tracks scope as n l) (hl : l.Sound) (hnan : ∀ h ∈ as ++ [f], h.confidence.isNan = false)
    (he : Entered l f l' e) :
    l'.findings.map some = (leads (as ++ [f])).map (standsFor (as ++ [f])) := by
  -- a finding whose signature stands already is no lead
  have hfollows : ∀ g ∈ l.findings, f.signature ≠ none → g.signature = f.signature → leads (as ++ [f]) = leads as := by
    intro g hg hn hs
    obtain ⟨s, hfs⟩ := Option.ne_none_iff_exists'.1 hn
    have hga : g ∈ as := (best?_mem (h.best_of_mem hg (hs.trans hfs))).1
    have hlead : ¬ Leading as f := fun hl => hl.elim hn fun hnew => hnew g hga hs
    rw [leads_snoc, if_neg hlead, List.append_nil]
  rcases he with ⟨hnew, hf⟩ | ⟨pre, g, post, hsplit, hn, hs, hlt, hf⟩ | ⟨pre, g, post, hsplit, hn, hs, hlt, hf⟩
  · rw [hf]
    exact h.enter_added hnan hnew
  · rw [hf, hfollows g (by simp [hsplit]) hn hs]
    exact h.enter_replaced hl hnan hsplit hn hs hlt
  · rw [hf, hfollows g (by simp [hsplit]) hn hs]
    exact h.enter_merged hnan (by simp [hsplit]) hn hs hlt

theorem Tracks.offer {scope : ChangeSet} {as : List Finding} {n : Nat} {l : Ledger} (h : Tracks scope as n l)
    (hl : l.Sound) {f : Finding} (hnan : ∀ h ∈ as ++ [f], h.confidence.isNan = false) :
    ((∃ e, (l.offer f).2 = .ok e) ↔ accepts scope as f = true) ∧
      Tracks scope (if accepts scope as f then as ++ [f] else as) (n + 1) (l.offer f).1 := by
  have hacc : accepts scope as f = true ↔ qualifies l.scope f = true ∧ f.id ∉ l.seen := by
    simp [accepts, h.scope_eq, h.seen]
  have hcount := h.rejected
  rcases offer_cases hl f with ⟨hno, r, ho⟩ | ⟨hq, hid, l', e, ho, he, hscope, hseen, hrej⟩ <;> rw [ho]
  · have hno : ¬ accepts scope as f = true := fun ha => hno (hacc.1 ha)
    rw [if_neg hno]
    exact ⟨by simpa using hno, h.scope_eq, h.seen, by simp only; omega, h.findings⟩
  · have hyes : accepts scope as f = true := hacc.2 ⟨hq, hid⟩
    rw [if_pos hyes]
    refine ⟨by simpa using hyes, hscope.trans h.scope_eq, ?_, ?_, h.enter hl hnan he⟩
    · rw [hseen, h.seen]; simp
    · rw [hrej, List.length_append, List.length_singleton]; omega

theorem tracks_after (scope : ChangeSet) (fs : List Finding) (hnan : ∀ f ∈ fs, f.confidence.isNan = false) :
    Tracks scope (accepted scope fs) fs.length ((empty scope).after fs) := by
  induction fs using List.reverseRecOn with
  | nil => exact tracks_empty scope
  | append_singleton fs f ih =>
    have hfs : ∀ g ∈ fs, g.confidence.isNan = false := fun g hg => hnan g (by simp [hg])
    rw [after_snoc, accepted_snoc, List.length_append, List.length_singleton]
    refine ((ih hfs).offer (after_sound (sound_empty scope) fs) fun g hg => ?_).2
    rcases List.mem_append.1 hg with hg | hg
    · exact hfs g (accepted_subset scope fs hg)
    · exact hnan g (by simp [List.mem_singleton.1 hg])

/-- **A ledger is what its accepted findings say.** An offer succeeds exactly on the accepted findings, the others are
counted, and the standing findings are the leads in order of acceptance, each with the finding that stands for it. -/
theorem after_standing (scope : ChangeSet) (fs : List Finding) (hmade : ∀ f ∈ fs, f.Made) :
    (∀ pre f post, fs = pre ++ f :: post →
        ((∃ e, (((empty scope).after pre).offer f).2 = .ok e) ↔ accepts scope (accepted scope pre) f = true)) ∧
      ((empty scope).after fs).rejected + (accepted scope fs).length = fs.length ∧
      ((empty scope).after fs).findings.map some =
        (leads (accepted scope fs)).map (standsFor (accepted scope fs)) := by
  have hnan : ∀ f ∈ fs, f.confidence.isNan = false := fun f hf => (hmade f hf).not_nan
  refine ⟨?_, (tracks_after scope fs hnan).rejected, (tracks_after scope fs hnan).findings⟩
  rintro pre f post rfl
  have hpre : ∀ g ∈ pre, g.confidence.isNan = false := fun g hg => hnan g (by simp [hg])
  refine ((tracks_after scope pre hpre).offer (after_sound (sound_empty scope) pre) fun g hg => ?_).1
  rcases List.mem_append.1 hg with hg | hg
  · exact hpre g (accepted_subset scope pre hg)
  · exact hnan g (by simp [List.mem_singleton.1 hg])

/-- two reports of one issue, the second more confident -/
def echoed : List Finding :=
  Finding.ofReports 0
    [{ Report.blank with
        id := some "a", severity := "high", confidence := .int 0, evidence := "line 3", file := some "a.py" },
      { Report.blank with
        id := some "b", severity := "high", confidence := .int 1, evidence := "line 3", file := some "./a.py" }]
    "reviewer" none

theorem after_standing_echoed :
    (∀ f ∈ echoed, f.Made) ∧
      ((empty ⟨["a.py"]⟩).after echoed).findings.map some =
        (leads (accepted ⟨["a.py"]⟩ echoed)).map (standsFor (accepted ⟨["a.py"]⟩ echoed)) ∧
      ((empty ⟨["a.py"]⟩).after echoed).findings.map Finding.id = [.given "b"] := by
  have hmade : ∀ f ∈ echoed, f.Made := fun f hf => Finding.made_of_mem hf
  exact ⟨hmade, (after_standing _ _ hmade).2.2, by decide +kernel⟩

end Ledger

end Foreman

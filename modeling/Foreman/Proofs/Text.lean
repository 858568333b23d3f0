/-
Texts as lists of characters: what trimming takes away, where one text occurs in another, where a text can be cut after a
number of bytes, and what small letters do to all that.

Small letters change the number of bytes, and of letters too, so that a place in the small letters of a text is not a
place in the text. Most ASCII letters are the small form of ASCII letters alone; the exceptions are `i` and `k`, which are
also in the small forms of a dotted capital I and of the Kelvin sign. So a word without these two that is found in the
small letters of a text was in the text, as long as it is there and letter by letter (`lowerChars_eq_append`).

Results:
- `trimChars_split`:       the blanks that trimming takes away.
- `splitBytes?_eq_some`:   where a text can be cut after a number of bytes.
- `cut?_isSome_iff`, `cut?_first`: the first occurrence is found, if there is one.
- `lowerChars_eq_append`:  what is found in the small letters of a text stands in the text.
- `upperChar_not_blank`:   raising a letter does not make it blank.
- `lines_subset`:          the lines of a text are made of its letters.
-/
import Mathlib
import Foreman.Text.Blank
import Foreman.Text.Case
import Foreman.Text.Search

namespace Foreman.Text

/-! ## Blanks at the ends -/

theorem trimChars_eq (cs : List Char) : trimChars cs = (cs.dropWhile isBlank).rdropWhile isBlank := rfl

theorem trimChars_split (cs : List Char) :
    ∃ front back, cs = front ++ trimChars cs ++ back ∧ (∀ c ∈ front, isBlank c = true) ∧ ∀ c ∈ back, isBlank c = true := by
  refine ⟨cs.takeWhile isBlank, (cs.dropWhile isBlank).rtakeWhile isBlank, ?_, fun c hc => List.mem_takeWhile_imp hc,
    fun c hc => List.mem_rtakeWhile_imp hc⟩
  rw [trimChars_eq, List.append_assoc, List.rdropWhile_append_rtakeWhile, List.takeWhile_append_dropWhile]

theorem trimChars_within (cs : List Char) : trimChars cs <:+: cs := by
  obtain ⟨front, back, hcs, -, -⟩ := trimChars_split cs
  exact ⟨front, back, hcs.symm⟩

theorem trimChars_length_le (cs : List Char) : (trimChars cs).length ≤ cs.length := by
  obtain ⟨front, back, hcs, -, -⟩ := trimChars_split cs
  have := congrArg List.length hcs
  simp only [List.length_append] at this
  omega

theorem trimChars_eq_self {cs : List Char} (hhead : ∀ c ∈ cs.head?, isBlank c = false)
    (hlast : ∀ c ∈ cs.getLast?, isBlank c = false) : trimChars cs = cs := by
  have hfront : cs.dropWhile isBlank = cs := by
    cases cs with
    | nil => rfl
    | cons c r => exact List.dropWhile_cons_of_neg (by simp [hhead c rfl])
  rw [trimChars_eq, hfront, List.rdropWhile_eq_self_iff]
  exact fun hne => by simp [hlast _ (List.getLast?_eq_getLast_of_ne_nil hne)]

theorem trimChars_length_lt {c : Char} {r : List Char} (h : isBlank c = true) :
    (trimChars (c :: r)).length < (c :: r).length := by
  have htail : trimChars (c :: r) = trimChars r := by
    rw [trimChars_eq, trimChars_eq, List.dropWhile_cons_of_pos h]
  rw [htail]
  exact Nat.lt_succ_of_le (trimChars_length_le r)

theorem trimChars_head {cs : List Char} {c : Char} (h : c ∈ (trimChars cs).head?) : isBlank c = false := by
  have hc : c ∈ (cs.dropWhile isBlank).head? := by
    obtain ⟨back, hback⟩ := List.rdropWhile_prefix isBlank (cs.dropWhile isBlank)
    rw [← hback, List.head?_append, ← trimChars_eq, h]
    rfl
  have hnot := List.head?_dropWhile_not isBlank cs
  rwa [Option.mem_def.1 hc] at hnot

theorem trimChars_last {cs : List Char} {c : Char} (h : c ∈ (trimChars cs).getLast?) : isBlank c = false := by
  obtain ⟨hne, rfl⟩ := List.mem_getLast?_eq_getLast h
  rw [← Bool.not_eq_true]
  exact List.rdropWhile_last_not isBlank _ hne

theorem trimChars_idem (cs : List Char) : trimChars (trimChars cs) = trimChars cs :=
  trimChars_eq_self (fun _ => trimChars_head) fun _ => trimChars_last

theorem trimChars_eq_nil {cs : List Char} : trimChars cs = [] ↔ ∀ c ∈ cs, isBlank c = true := by
  constructor
  · intro h
    obtain ⟨front, back, hcs, hfront, hback⟩ := trimChars_split cs
    rw [h, List.append_nil] at hcs
    rw [hcs]
    exact fun c hc => (List.mem_append.1 hc).elim (hfront c) (hback c)
  · intro h
    rw [trimChars_eq, List.dropWhile_eq_nil_iff.2 h]
    rfl

/-! ## Bytes -/

@[simp] theorem byteSize_nil : byteSize [] = 0 := rfl

@[simp] theorem byteSize_append (a b : List Char) : byteSize (a ++ b) = byteSize a + byteSize b := by
  induction a with
  | nil => simp
  | cons c a ih => simp only [List.cons_append, byteSize, ih]; omega

/-- pieces at the front of one text that are of one size are the same -/
theorem append_inj_byteSize {a b x y : List Char} (h : a ++ x = b ++ y) (hsize : byteSize a = byteSize b) :
    a = b ∧ x = y := by
  induction a generalizing b with
  | nil =>
    cases b with
    | nil => exact ⟨rfl, h⟩
    | cons d b => simp only [byteSize] at hsize; have := d.utf8Size_pos; omega
  | cons c a ih =>
    cases b with
    | nil => simp only [byteSize] at hsize; have := c.utf8Size_pos; omega
    | cons d b =>
      obtain ⟨rfl, htail⟩ := List.cons_eq_cons.1 h
      obtain ⟨rfl, rfl⟩ := ih htail (by simpa only [byteSize, Nat.add_left_cancel_iff] using hsize)
      exact ⟨rfl, rfl⟩

/-- **A text can be cut after a number of bytes** exactly where one of its characters ends. -/
theorem splitBytes?_eq_some {n : Nat} {cs a b : List Char} :
    splitBytes? n cs = some (a, b) ↔ cs = a ++ b ∧ byteSize a = n := by
  constructor
  · intro h
    induction n, cs using splitBytes?.induct generalizing a with
    | case1 cs =>
      obtain ⟨rfl, rfl⟩ : [] = a ∧ cs = b := by simpa [splitBytes?] using h
      exact ⟨rfl, rfl⟩
    | case2 n => simp [splitBytes?] at h
    | case3 n c r hle ih =>
      rw [splitBytes?, if_pos hle] at h
      obtain ⟨⟨a', b'⟩, hsplit, hab⟩ := Option.map_eq_some_iff.1 h
      obtain ⟨rfl, rfl⟩ := Prod.mk.inj hab
      obtain ⟨rfl, hsize⟩ := ih hsplit
      exact ⟨rfl, by simp only [byteSize]; omega⟩
    | case4 n c r hle => simp [splitBytes?, hle] at h
  · rintro ⟨rfl, rfl⟩
    induction a with
    | nil => simp [splitBytes?]
    | cons c a ih =>
      obtain ⟨n, hn⟩ : ∃ n, byteSize (c :: a) = n + 1 := ⟨_, (Nat.sub_add_cancel (by
        have := c.utf8Size_pos
        simp only [byteSize]; omega)).symm⟩
      have hle : c.utf8Size ≤ n + 1 := by rw [← hn]; exact Nat.le_add_right _ _
      have hrest : n + 1 - c.utf8Size = byteSize a := by rw [← hn]; exact Nat.add_sub_cancel_left _ _
      rw [hn, List.cons_append, splitBytes?, if_pos hle, hrest, ih]
      rfl

/-! ## Occurrences -/

section Occurrences

variable {w t a b : List Char}

theorem cut?_eq_append (h : cut? w t = some (a, b)) : t = a ++ w ++ b := by
  induction t generalizing a with
  | nil =>
    cases w with
    | nil => simp [cut?] at h; simp [h]
    | cons => simp [cut?] at h
  | cons c r ih =>
    rw [cut?] at h
    split_ifs at h with hw
    · obtain ⟨rest, hrest⟩ := List.isPrefixOf_iff_prefix.1 hw
      rw [← hrest, List.drop_left, Option.some.injEq, Prod.mk.injEq] at h
      obtain ⟨rfl, rfl⟩ := h
      exact hrest.symm
    · obtain ⟨⟨a', b'⟩, hcut, hab⟩ := Option.map_eq_some_iff.1 h
      obtain ⟨rfl, rfl⟩ := Prod.mk.inj hab
      rw [ih hcut]
      rfl

/-- **The occurrence that is found is the first.** -/
theorem cut?_first (h : cut? w t = some (a, b)) {a' b' : List Char} (ht : t = a' ++ w ++ b') : a.length ≤ a'.length := by
  induction t generalizing a a' with
  | nil =>
    have := cut?_eq_append h
    simp only [List.nil_eq, List.append_eq_nil_iff] at this
    simp [this]
  | cons c r ih =>
    rw [cut?] at h
    split_ifs at h with hw
    · obtain ⟨rfl, -⟩ := Prod.mk.inj (Option.some.inj h)
      exact Nat.zero_le _
    · obtain ⟨⟨a₁, b₁⟩, hcut, hab⟩ := Option.map_eq_some_iff.1 h
      obtain ⟨rfl, rfl⟩ := Prod.mk.inj hab
      cases a' with
      | nil => exact absurd (List.isPrefixOf_iff_prefix.2 ⟨b', ht.symm⟩) hw
      | cons c' a' => exact Nat.succ_le_succ (ih hcut (List.cons_eq_cons.1 ht).2)

/-- **What occurs is found.** -/
theorem cut?_isSome_iff : (cut? w t).isSome = true ↔ ∃ a b, t = a ++ w ++ b := by
  constructor
  · intro h
    obtain ⟨⟨a, b⟩, hcut⟩ := Option.isSome_iff_exists.1 h
    exact ⟨a, b, cut?_eq_append hcut⟩
  · rintro ⟨a, b, rfl⟩
    induction a with
    | nil =>
      cases w with
      | nil => cases b <;> simp [cut?]
      | cons c w => simp [cut?]
    | cons c a ih =>
      rw [List.cons_append, List.cons_append, cut?]
      split_ifs
      · rfl
      · rwa [Option.isSome_map]

end Occurrences

/-! ## Lines -/

theorem linesOf_subset {cur cs line : List Char} {acc : List (List Char)} (h : line ∈ linesOf cur acc cs) :
    line ∈ acc ∨ line ⊆ cur ++ cs := by
  induction cur, acc, cs using linesOf.induct with
  | case1 cur acc =>
    rw [linesOf, List.mem_reverse] at h
    split_ifs at h
    · exact Or.inl h
    · rcases List.mem_cons.1 h with rfl | h
      · exact Or.inr (by simp)
      · exact Or.inl h
  | case2 cur acc r ih =>
    rcases ih h with h | h
    · rcases List.mem_cons.1 h with rfl | h
      · -- the line that ends here, without its carriage return
        refine Or.inr fun c hc => List.mem_append_left _ ?_
        split at hc
        · exact List.mem_cons_of_mem _ (List.mem_reverse.1 hc)
        · exact List.mem_reverse.1 hc
      · exact Or.inl h
    · exact Or.inr (List.Subset.trans h fun c hc => List.mem_append_right _ (List.mem_cons_of_mem _ hc))
  | case3 cur acc c r _ ih =>
    rw [linesOf] at h
    · refine (ih h).imp_right fun h => List.Subset.trans h fun d hd => ?_
      simp only [List.cons_append, List.mem_cons, List.mem_append] at hd ⊢
      tauto
    · assumption

theorem lines_subset {cs line : List Char} (h : line ∈ lines cs) : line ⊆ cs :=
  (linesOf_subset h).resolve_left List.not_mem_nil

/-! ## Small letters -/

/-- a letter that is the small form of ASCII letters alone -/
def Plain (c : Char) : Prop := c.toNat < 128 ∧ c ≠ 'i' ∧ c ≠ 'k'

instance (c : Char) : Decidable (Plain c) := inferInstanceAs (Decidable (_ ∧ _))

theorem lowerChars_append (a b : List Char) : lowerChars (a ++ b) = lowerChars a ++ lowerChars b := List.flatMap_append

theorem mapRun_cases (runs : List CaseRun) (d : Char) :
    mapRun runs d = d ∨ ∃ r ∈ runs, r.first ≤ d.toNat ∧ d.toNat ≤ r.last ∧
      mapRun runs d = Char.ofNat (d.toNat + r.shift).toNat := by
  rw [mapRun]
  cases hr : runs.find? (·.covers d.toNat) with
  | none => exact Or.inl rfl
  | some r =>
    have hcovers := List.find?_some hr
    simp only [CaseRun.covers, Bool.and_eq_true, decide_eq_true_eq] at hcovers
    exact Or.inr ⟨r, List.mem_of_find?_eq_some hr, hcovers.1.1, hcovers.1.2, rfl⟩

/-- what a letter is mapped to stands in the table of long forms, or comes from the table of runs -/
theorem mem_mapLetter {long : List (Nat × List Nat)} {runs : List CaseRun} {c d : Char}
    (h : c ∈ mapLetter long runs d) : (∃ e ∈ long, ∃ n ∈ e.2, c = Char.ofNat n) ∨ c = mapRun runs d := by
  unfold mapLetter at h
  split at h
  · next ns hns =>
    obtain ⟨pre, post, hlong, -⟩ := List.lookup_eq_some_iff.1 hns
    obtain ⟨n, hn, rfl⟩ := List.mem_map.1 h
    exact Or.inl ⟨(d.toNat, ns), by rw [hlong]; simp, n, hn, rfl⟩
  · exact Or.inr (List.mem_singleton.1 h)

/-- what the runs of the table of small forms lead to: code points of characters beyond ASCII, and the letter `k` -/
theorem lowerRuns_range : ∀ r ∈ lowerRuns,
    128 ≤ r.first + r.shift ∧ (r.last + r.shift < 0xD800 ∨ 0xDFFF < r.first + r.shift ∧ r.last + r.shift < 0x110000) ∨
      r.first = r.last ∧ (r.first + r.shift).toNat = 'k'.toNat := by
  decide +kernel

theorem mapRun_lower (d : Char) (h : 128 ≤ d.toNat) : 128 ≤ (mapRun lowerRuns d).toNat ∨ mapRun lowerRuns d = 'k' := by
  rcases mapRun_cases lowerRuns d with heq | ⟨r, hr, hfirst, hlast, heq⟩ <;> rw [heq]
  · exact Or.inl h
  · rcases lowerRuns_range r hr with ⟨hge, hvalid⟩ | ⟨hone, hk⟩
    · rw [Char.toNat_ofNat, if_pos]
      · omega
      · simp only [Nat.isValidChar]
        omega
    · have hd : d.toNat = r.first := by omega
      refine Or.inr ?_
      rw [hd, hk]
      rfl

/-- a plain letter is the small form of one ASCII letter, and of nothing else -/
theorem lowerChar_plain {c d : Char} (hc : Plain c) (h : c ∈ lowerChar d) : d.toNat < 128 ∧ lowerChar d = [c] := by
  obtain ⟨hascii, hi, hk⟩ := hc
  unfold lowerChar at h ⊢
  split_ifs at h ⊢ with hd
  · exact ⟨hd, by rw [List.mem_singleton.1 h]⟩
  · exfalso
    rcases mem_mapLetter h with ⟨e, he, n, hn, rfl⟩ | rfl
    · have hall : ∀ e ∈ lowerLong, ∀ n ∈ e.2, ¬Plain (Char.ofNat n) := by decide
      exact hall e he n hn ⟨hascii, hi, hk⟩
    · rcases mapRun_lower d (by omega) with hge | heq
      · omega
      · exact hk heq

/-- no letter is without a form as long as none of the long forms is empty -/
theorem mapLetter_ne_nil {long : List (Nat × List Nat)} (h : ∀ e ∈ long, e.2 ≠ []) (runs : List CaseRun) (d : Char) :
    mapLetter long runs d ≠ [] := by
  unfold mapLetter
  split
  · next ns hns =>
    obtain ⟨pre, post, hlong, -⟩ := List.lookup_eq_some_iff.1 hns
    have hne : ns ≠ [] := h (d.toNat, ns) (by rw [hlong]; simp)
    simpa using hne
  · exact List.cons_ne_nil _ _

theorem lowerChar_ne_nil (d : Char) : lowerChar d ≠ [] := by
  rw [lowerChar]
  split_ifs
  · exact List.cons_ne_nil _ _
  · exact mapLetter_ne_nil (by decide) _ d

/-- of two pieces at the front of one text the one with more small letters is the longer -/
theorem length_le_of_lowerChars {l l' r r' : List Char} (h : l ++ r = l' ++ r')
    (hle : (lowerChars l).length ≤ (lowerChars l').length) : l.length ≤ l'.length := by
  by_contra hlt
  obtain ⟨x, rfl⟩ : l' <+: l := List.prefix_of_prefix_length_le ⟨r', h.symm⟩ ⟨r, rfl⟩ (by omega)
  cases x with
  | nil => simp at hlt
  | cons c x =>
    rw [lowerChars_append, List.length_append] at hle
    have hc := List.length_pos_iff.2 (lowerChar_ne_nil c)
    simp only [lowerChars, List.flatMap_cons, List.length_append] at hle
    omega

/-- the small letters of a text can be cut before a plain letter, and the text with them -/
theorem lowerChars_split {t a x : List Char} (hx : ∀ c ∈ x.head?, Plain c) (h : lowerChars t = a ++ x) :
    ∃ l r, t = l ++ r ∧ lowerChars l = a ∧ lowerChars r = x := by
  induction t generalizing a with
  | nil =>
    obtain ⟨rfl, rfl⟩ := List.append_eq_nil_iff.1 h.symm
    exact ⟨[], [], rfl, rfl, rfl⟩
  | cons d t ih =>
    rw [lowerChars, List.flatMap_cons] at h
    rcases List.append_eq_append_iff.1 h with ⟨a', rfl, ht⟩ | ⟨y, hy, rfl⟩
    · obtain ⟨l, r, rfl, rfl, rfl⟩ := ih ht
      exact ⟨d :: l, r, rfl, by rw [lowerChars, List.flatMap_cons]; rfl, rfl⟩
    · cases y with
      | nil =>
        rw [List.append_nil] at hy
        exact ⟨[d], t, rfl, by simp [lowerChars, hy], rfl⟩
      | cons c y =>
        -- the letter before which to cut is in the small form of `d`, so it is all of it
        obtain ⟨-, hd⟩ := lowerChar_plain (hx c rfl) (d := d) (by rw [hy]; simp)
        rw [hd] at hy
        obtain ⟨rfl, rfl⟩ : a = [] ∧ y = [] := by
          have := congrArg List.length hy
          simp only [List.length_append, List.length_cons, List.length_nil] at this
          exact ⟨List.eq_nil_of_length_eq_zero (by omega), List.eq_nil_of_length_eq_zero (by omega)⟩
        exact ⟨[], d :: t, rfl, rfl, by rw [lowerChars, List.flatMap_cons, hd]⟩

/-- a word of plain letters at the front of the small letters of a text is at the front of the text too, of one size -/
theorem lowerChars_front {w t b : List Char} (hw : ∀ c ∈ w, Plain c) (h : lowerChars t = w ++ b) :
    ∃ m r, t = m ++ r ∧ lowerChars m = w ∧ lowerChars r = b ∧ byteSize m = byteSize w := by
  induction w generalizing t with
  | nil => exact ⟨[], t, rfl, rfl, h, rfl⟩
  | cons c w ih =>
    cases t with
    | nil => cases h
    | cons d t =>
      rw [lowerChars, List.flatMap_cons, List.cons_append] at h
      obtain ⟨e, es, hes⟩ := List.exists_cons_of_ne_nil (lowerChar_ne_nil d)
      have hec : e = c := by rw [hes] at h; exact (List.cons_eq_cons.1 h).1
      obtain ⟨hd, hone⟩ := lowerChar_plain (hw c List.mem_cons_self) (d := d) (by rw [hes, hec]; simp)
      rw [hone, List.cons_append, List.nil_append, List.cons_eq_cons] at h
      obtain ⟨m, r, rfl, rfl, rfl, hsize⟩ := ih (fun x hx => hw x (List.mem_cons_of_mem _ hx)) h.2
      have hsizes : d.utf8Size = c.utf8Size := by
        rw [Char.utf8Size_eq_one_iff.2 (UInt32.le_iff_toNat_le.2 (Nat.le_of_lt_succ hd)),
          Char.utf8Size_eq_one_iff.2 (UInt32.le_iff_toNat_le.2 (Nat.le_of_lt_succ (hw c List.mem_cons_self).1))]
      refine ⟨d :: m, r, rfl, ?_, rfl, by simp only [byteSize, hsize, hsizes]⟩
      rw [lowerChars, List.flatMap_cons, hone]
      rfl

/-- **What is found in the small letters of a text stands in the text**, if it is a word of plain letters. -/
theorem lowerChars_eq_append {w t a b : List Char} (hw : ∀ c ∈ w, Plain c) (hne : w ≠ [])
    (h : lowerChars t = a ++ w ++ b) :
    ∃ l m r, t = l ++ m ++ r ∧ lowerChars l = a ∧ lowerChars m = w ∧ lowerChars r = b ∧ byteSize m = byteSize w := by
  obtain ⟨c, w', rfl⟩ := List.exists_cons_of_ne_nil hne
  rw [List.append_assoc] at h
  obtain ⟨l, x, rfl, hl, hx⟩ := lowerChars_split (by simpa using hw c List.mem_cons_self) h
  obtain ⟨m, r, rfl, hm, hr, hsize⟩ := lowerChars_front hw hx
  exact ⟨l, m, r, (List.append_assoc _ _ _).symm, hl, hm, hr, hsize⟩

theorem byteSize_of_plain {m w : List Char} (hw : ∀ c ∈ w, Plain c) (h : lowerChars m = w) :
    byteSize m = byteSize w := by
  obtain ⟨m', r, rfl, hm', hr, hsize⟩ := lowerChars_front (b := []) hw (by rw [h, List.append_nil])
  cases r with
  | nil => rw [List.append_nil, hsize]
  | cons c r => simp [lowerChars, lowerChar_ne_nil] at hr

/-! ## Capital letters -/

theorem upperChar_ne_nil (d : Char) : upperChar d ≠ [] := by
  rw [upperChar]
  split_ifs
  · exact List.cons_ne_nil _ _
  · exact mapLetter_ne_nil (by decide +kernel) _ d

theorem capitalizeChars_eq_nil {cs : List Char} : capitalizeChars cs = [] ↔ cs = [] := by
  cases cs with
  | nil => simp [capitalizeChars]
  | cons c r => simp [capitalizeChars, upperChar_ne_nil]

/-- where the blanks are -/
def blankRanges : List (Nat × Nat) :=
  [(9, 13), (0x20, 0x20), (0x85, 0x85), (0xA0, 0xA0), (0x1680, 0x1680), (0x2000, 0x200A), (0x2028, 0x2029),
    (0x202F, 0x202F), (0x205F, 0x205F), (0x3000, 0x3000)]

theorem isBlank_iff (c : Char) : isBlank c = true ↔ ∃ r ∈ blankRanges, r.1 ≤ c.toNat ∧ c.toNat ≤ r.2 := by
  simp only [isBlank, blankRanges, Bool.or_eq_true, Bool.and_eq_true, decide_eq_true_eq, beq_iff_eq, List.mem_cons,
    List.not_mem_nil, or_false, exists_eq_or_imp, exists_eq_left]
  omega

/-- no run of the table of capital forms leads to a blank -/
theorem upperRuns_range : ∀ r ∈ upperRuns, ∀ b ∈ blankRanges, r.last + r.shift < b.1 ∨ b.2 < r.first + r.shift := by
  decide +kernel

theorem mapRun_upper_not_blank {c : Char} (h : isBlank c = false) : isBlank (mapRun upperRuns c) = false := by
  rcases mapRun_cases upperRuns c with heq | ⟨r, hr, hfirst, hlast, heq⟩ <;> rw [heq]
  · exact h
  · rw [← Bool.not_eq_true, isBlank_iff]
    rintro ⟨b, hb, hlo, hhi⟩
    have hrange := upperRuns_range r hr b hb
    have hpos : 0 < b.1 := (by decide : ∀ b ∈ blankRanges, 0 < b.1) b hb
    rw [Char.toNat_ofNat] at hlo hhi
    split_ifs at hlo hhi <;> omega

/-- **No capital form of a letter is blank.** -/
theorem upperChar_not_blank {c : Char} (h : isBlank c = false) : ∀ d ∈ upperChar c, isBlank d = false := by
  intro d hd
  rw [upperChar] at hd
  split_ifs at hd with hc
  · rw [List.mem_singleton.1 hd]
    have hall : ∀ n : Fin 128, isBlank (Char.ofNat n) = false → isBlank (Char.ofNat n).toUpper = false := by decide +kernel
    simpa [h] using hall ⟨c.toNat, hc⟩
  · rcases mem_mapLetter hd with ⟨e, he, n, hn, rfl⟩ | rfl
    · have hall : ∀ e ∈ upperLong, ∀ n ∈ e.2, isBlank (Char.ofNat n) = false := by decide +kernel
      exact hall e he n hn
    · exact mapRun_upper_not_blank h

/-- a text that is trimmed keeps a letter that is no blank when its first letter is raised -/
theorem capitalizeChars_not_blank {cs : List Char} (hne : cs ≠ []) (htrim : trimChars cs = cs) :
    ∃ c ∈ capitalizeChars cs, isBlank c = false := by
  obtain ⟨c, r, rfl⟩ := List.exists_cons_of_ne_nil hne
  obtain ⟨d, ds, hd⟩ := List.exists_cons_of_ne_nil (upperChar_ne_nil c)
  have hhead : c ∈ (trimChars (c :: r)).head? := by
    rw [htrim]
    rfl
  have hc : isBlank c = false := trimChars_head hhead
  refine ⟨d, ?_, upperChar_not_blank hc d (by rw [hd]; exact List.mem_cons_self)⟩
  rw [capitalizeChars, hd]
  exact List.mem_append_left _ List.mem_cons_self

/-! ## ASCII -/

def Ascii (cs : List Char) : Prop := ∀ c ∈ cs, c.toNat < 128

instance (cs : List Char) : Decidable (Ascii cs) := decidable_of_iff (cs.all (·.toNat < 128) = true) (by simp [Ascii])

theorem Ascii.subset {cs ds : List Char} (h : Ascii cs) (hds : ds ⊆ cs) : Ascii ds := fun c hc => h c (hds hc)

theorem Ascii.lowerChars {cs : List Char} (h : Ascii cs) : lowerChars cs = cs.map Char.toLower := by
  induction cs with
  | nil => rfl
  | cons c cs ih =>
    have hc : lowerChar c = [c.toLower] := if_pos (h c List.mem_cons_self)
    rw [Text.lowerChars, List.flatMap_cons, hc, List.map_cons, ← ih fun d hd => h d (List.mem_cons_of_mem _ hd)]
    rfl

theorem ascii_forms (c : Char) (hc : c.toNat < 128) : c.toLower.toNat < 128 ∧ c.toUpper.toNat < 128 := by
  have hall : ∀ n : Fin 128, (Char.ofNat n).toLower.toNat < 128 ∧ (Char.ofNat n).toUpper.toNat < 128 := by
    decide +kernel
  simpa using hall ⟨c.toNat, hc⟩

theorem Ascii.byteSize {cs : List Char} (h : Ascii cs) : byteSize cs = cs.length := by
  induction cs with
  | nil => rfl
  | cons c cs ih =>
    have hc : c.utf8Size = 1 :=
      Char.utf8Size_eq_one_iff.2 (UInt32.le_iff_toNat_le.2 (Nat.le_of_lt_succ (h c List.mem_cons_self)))
    rw [Text.byteSize, hc, ih fun d hd => h d (List.mem_cons_of_mem _ hd), List.length_cons, Nat.add_comm]

theorem Ascii.fits {cs : List Char} (h : Ascii cs) : Text.byteSize (Text.lowerChars cs) = Text.byteSize cs := by
  have hsmall : Ascii (Text.lowerChars cs) := by
    rw [h.lowerChars]
    intro c hc
    obtain ⟨d, hd, rfl⟩ := List.mem_map.1 hc
    exact (ascii_forms d (h d hd)).1
  rw [hsmall.byteSize, h.byteSize, h.lowerChars, List.length_map]

theorem Ascii.lowerChars_capitalize {cs : List Char} (h : Ascii cs) :
    Text.lowerChars (capitalizeChars cs) = Text.lowerChars cs := by
  cases cs with
  | nil => rfl
  | cons c r =>
    have hc := h c List.mem_cons_self
    have hupper : upperChar c = [c.toUpper] := if_pos hc
    have hcap : lowerChar c.toUpper = [c.toUpper.toLower] := if_pos (ascii_forms c hc).2
    have hsmall : lowerChar c = [c.toLower] := if_pos hc
    rw [capitalizeChars, hupper, List.singleton_append, Text.lowerChars, List.flatMap_cons, hcap, Text.lowerChars,
      List.flatMap_cons, hsmall, Char.toLower_toUpper_eq_toLower]

/-! ## Letters that change their size -/

/-- no letter of the text takes more bytes in its small form, or none takes fewer -/
def OneWay (cs : List Char) : Prop :=
  (∀ c ∈ cs, byteSize (lowerChar c) ≤ c.utf8Size) ∨ ∀ c ∈ cs, c.utf8Size ≤ byteSize (lowerChar c)

theorem OneWay.subset {cs ds : List Char} (h : OneWay cs) (hds : ds ⊆ cs) : OneWay ds :=
  h.imp (fun h c hc => h c (hds hc)) fun h c hc => h c (hds hc)

theorem byteSize_eq_sum (cs : List Char) : byteSize cs = (cs.map Char.utf8Size).sum := by
  induction cs with
  | nil => rfl
  | cons c cs ih => rw [byteSize, ih, List.map_cons, List.sum_cons]

theorem byteSize_lowerChars (cs : List Char) :
    byteSize (lowerChars cs) = (cs.map fun c => byteSize (lowerChar c)).sum := by
  induction cs with
  | nil => rfl
  | cons c cs ih => rw [List.map_cons, List.sum_cons, ← ih, ← byteSize_append]; rfl

/-- **Sizes that agree on the whole agree on every front** if letters change their size in one direction only. -/
theorem OneWay.front {l r : List Char} (h : OneWay (l ++ r))
    (hsize : byteSize (lowerChars (l ++ r)) = byteSize (l ++ r)) : byteSize (lowerChars l) = byteSize l := by
  have hl : l ⊆ l ++ r := List.subset_append_left l r
  have hr : r ⊆ l ++ r := List.subset_append_right l r
  rw [lowerChars_append, byteSize_append, byteSize_append] at hsize
  simp only [byteSize_lowerChars, byteSize_eq_sum l, byteSize_eq_sum r] at hsize ⊢
  rcases h with h | h
  · have hleft := List.sum_le_sum fun c hc => h c (hl hc)
    have hright := List.sum_le_sum fun c hc => h c (hr hc)
    omega
  · have hleft := List.sum_le_sum fun c hc => h c (hl hc)
    have hright := List.sum_le_sum fun c hc => h c (hr hc)
    omega

end Foreman.Text

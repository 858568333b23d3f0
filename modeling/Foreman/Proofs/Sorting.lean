/-
Sorting that keeps what is alike in its order.

Results:
- `mergeSort_filter`: leaving things out before sorting is leaving them out afterwards.
- `filter_mergeSort`: things that may stand in any order among each other come out as they went in.
- `mergeSort_congr`:  only what is in the list is compared.
-/
import Mathlib.Data.List.Sort

namespace Foreman.Sorting

variable {α : Type} {le le' : α → α → Bool} {l : List α}

/-- a sorted list has one place for a thing: behind what it may not stand before, and before all else -/
theorem parts_eq {a : α} {pre post : List α} (hpre : ∀ b ∈ pre, (!le a b) = true) (hpost : ∀ b ∈ post, le a b = true) :
    pre = (pre ++ post).filter (fun b => !le a b) ∧ post = (pre ++ post).filter (le a) := by
  have hfirst : pre.filter (le a) = [] := List.filter_eq_nil_iff.2 fun b hb => by simpa using hpre b hb
  have hlast : post.filter (fun b => !le a b) = [] := List.filter_eq_nil_iff.2 fun b hb => by simpa using hpost b hb
  constructor
  · rw [List.filter_append, List.filter_eq_self.2 hpre, hlast, List.append_nil]
  · rw [List.filter_append, hfirst, List.filter_eq_self.2 hpost, List.nil_append]

/-- **Leaving things out** before sorting is leaving them out afterwards. -/
theorem mergeSort_filter (trans : ∀ a b c, le a b = true → le b c = true → le a c = true)
    (total : ∀ a b, (le a b || le b a) = true) (p : α → Bool) (l : List α) :
    (l.filter p).mergeSort le = (l.mergeSort le).filter p := by
  -- behind a thing that is put in its place there is only what it may stand before
  have hbehind : ∀ {a : α} {l pre post : List α}, l.mergeSort le = pre ++ a :: post → ∀ b ∈ post, le a b = true := by
    intro a l pre post hl
    have hsorted := List.pairwise_mergeSort trans total l
    rw [hl, List.pairwise_append, List.pairwise_cons] at hsorted
    exact hsorted.2.1.1
  induction l with
  | nil => simp
  | cons a l ih =>
    obtain ⟨pre, post, hwith, hwithout, hpre⟩ := List.mergeSort_cons trans total a l
    have hpost := hbehind hwith
    rw [hwithout, List.filter_append] at ih
    rw [hwith, List.filter_append]
    cases ha : p a with
    | false => rw [List.filter_cons_of_neg (by simp [ha]), List.filter_cons_of_neg (by simp [ha]), ih]
    | true =>
      rw [List.filter_cons_of_pos ha, List.filter_cons_of_pos ha]
      obtain ⟨pre', post', hwith', hwithout', hpre'⟩ := List.mergeSort_cons trans total a (l.filter p)
      have hkept : ∀ b ∈ pre.filter p, (!le a b) = true := fun b hb => hpre b (List.mem_of_mem_filter hb)
      have hrest : ∀ b ∈ post.filter p, le a b = true := fun b hb => hpost b (List.mem_of_mem_filter hb)
      -- the others are cut at the same place
      obtain ⟨hpre', hpost'⟩ := parts_eq hpre' (hbehind hwith')
      rw [← hwithout', ih] at hpre' hpost'
      rw [hwith', hpre', hpost', ← (parts_eq hkept hrest).1, ← (parts_eq hkept hrest).2]

/-- **What is alike keeps its order.** -/
theorem filter_mergeSort (trans : ∀ a b c, le a b = true → le b c = true → le a c = true)
    (total : ∀ a b, (le a b || le b a) = true) {p : α → Bool} (h : ∀ a b, p a = true → p b = true → le a b = true) :
    (l.mergeSort le).filter p = l.filter p := by
  have hsorted : (l.filter p).Pairwise fun a b => le a b = true :=
    List.pairwise_of_forall_mem_list fun a ha b hb => h a b (List.mem_filter.1 ha).2 (List.mem_filter.1 hb).2
  rw [← mergeSort_filter trans total, List.mergeSort_of_pairwise hsorted]

/-- **Only what is in the list is compared.** -/
theorem mergeSort_congr (h : ∀ a ∈ l, ∀ b ∈ l, le a b = le' a b) : l.mergeSort le = l.mergeSort le' := by
  simpa using List.map_mergeSort (f := id) h

end Foreman.Sorting

/-
Lists of things under keys, each key once, and lists of keys alone.

Results:
- `split_of_lookup`, `lookup_of_mem`: what is found under a key is there, and what is there is found.
- `length_eq_countP`: those that are found to be of a kind are counted.
- `lookup_replace`, `lookup_remove`, `lookup_kept`, `lookup_concat`: what is found after a change, or behind a new entry.
- `sum_replace`, `countP_replace`: what all are worth, and how many there are of a kind, after a change.
- `foldl_concat`: what comes of putting keys last that are not there yet.
-/
import Mathlib.Tactic

namespace Foreman.Keyed

variable {κ α : Type} [DecidableEq κ] {l : List (κ × α)} {k : κ} {a : α}

/-- what is found under a key stands among entries with other keys -/
theorem split_of_lookup (hkeys : (l.map Prod.fst).Nodup) (h : l.lookup k = some a) :
    ∃ pre post, l = pre ++ (k, a) :: post ∧ ∀ p ∈ pre ++ post, p.1 ≠ k := by
  obtain ⟨pre, post, rfl, -⟩ := List.lookup_eq_some_iff.1 h
  refine ⟨pre, post, rfl, fun p hp he => ?_⟩
  rw [List.map_append, List.map_cons] at hkeys
  have hnot := List.nodup_middle.1 hkeys
  rw [List.nodup_cons, ← List.map_append] at hnot
  exact hnot.1 (List.mem_map.2 ⟨p, hp, he⟩)

theorem mem_of_lookup (h : l.lookup k = some a) : (k, a) ∈ l := by
  obtain ⟨pre, post, rfl, -⟩ := List.lookup_eq_some_iff.1 h
  exact List.mem_append_right _ List.mem_cons_self

theorem lookup_of_mem (hkeys : (l.map Prod.fst).Nodup) (h : (k, a) ∈ l) : l.lookup k = some a := by
  obtain ⟨pre, post, rfl⟩ := List.append_of_mem h
  refine List.lookup_eq_some_iff.2 ⟨pre, post, rfl, fun p hp => ?_⟩
  rw [List.map_append, List.map_cons] at hkeys
  have hnot : p.1 ∉ k :: post.map Prod.fst := List.disjoint_of_nodup_append hkeys (List.mem_map.2 ⟨p, hp, rfl⟩)
  have hne : k ≠ p.1 := fun he => hnot (he ▸ List.mem_cons_self)
  simpa using hne

theorem not_mem_keys_of_lookup (h : l.lookup k = none) : k ∉ l.map Prod.fst := by
  intro hmem
  obtain ⟨p, hp, rfl⟩ := List.mem_map.1 hmem
  simpa using List.lookup_eq_none_iff.1 h p hp

theorem length_eq_countP (hkeys : (l.map Prod.fst).Nodup) {f : α → Bool} {ks : List κ} (hks : ks.Nodup)
    (h : ∀ k, k ∈ ks ↔ (l.lookup k).any f = true) : ks.length = l.countP fun p => f p.2 := by
  have hsub : ((l.filter fun p => f p.2).map Prod.fst).Nodup := hkeys.sublist (List.filter_sublist.map _)
  have hmem : ∀ k, k ∈ ks ↔ k ∈ (l.filter fun p => f p.2).map Prod.fst := by
    intro k
    rw [h k, Option.any_eq_true, List.mem_map]
    constructor
    · rintro ⟨a, ha, hf⟩
      exact ⟨(k, a), List.mem_filter.2 ⟨mem_of_lookup ha, hf⟩, rfl⟩
    · rintro ⟨p, hp, rfl⟩
      obtain ⟨hp, hf⟩ := List.mem_filter.1 hp
      exact ⟨p.2, lookup_of_mem hkeys hp, hf⟩
  rw [((List.perm_ext_iff_of_nodup hks hsub).2 hmem).length_eq, List.length_map, List.countP_eq_length_filter]

/-! ## Changes -/

theorem lookup_replace (l : List (κ × α)) (k j : κ) (a : α) :
    (l.map fun p => if p.1 = k then (k, a) else p).lookup j =
      if j = k then (l.lookup k).map fun _ => a else l.lookup j := by
  induction l with
  | nil => simp
  | cons p l ih =>
    obtain ⟨i, d⟩ := p
    by_cases hi : i = k <;> by_cases hj : j = k <;> by_cases hji : j = i <;> grind

theorem any_replace (h : l.lookup k = some a) (b : α) (f : α → Bool) (j : κ) :
    ((l.map fun p => if p.1 = k then (k, b) else p).lookup j).any f = if j = k then f b else (l.lookup j).any f := by
  rw [lookup_replace, h]
  split_ifs <;> rfl

theorem any_replace_of_eq (h : l.lookup k = some a) {b : α} {f : α → Bool} (hf : f b = f a) (j : κ) :
    ((l.map fun p => if p.1 = k then (k, b) else p).lookup j).any f = (l.lookup j).any f := by
  rw [any_replace h]
  split_ifs with hj
  · rw [hf, hj, h, Option.any_some]
  · rfl

theorem keys_replace (l : List (κ × α)) (k : κ) (a : α) :
    (l.map fun p => if p.1 = k then (k, a) else p).map Prod.fst = l.map Prod.fst := by
  rw [List.map_map]
  refine List.map_congr_left fun p _ => ?_
  by_cases hp : p.1 = k <;> simp [hp]

/-- one entry adds what it is worth now, the others as before -/
theorem sum_replace (hkeys : (l.map Prod.fst).Nodup) (h : l.lookup k = some a) (f : α → Nat) (b : α) :
    ((l.map fun p => if p.1 = k then (k, b) else p).map fun p => f p.2).sum + f a =
      (l.map fun p => f p.2).sum + f b := by
  obtain ⟨pre, post, rfl, hother⟩ := split_of_lookup hkeys h
  have hsame : ∀ es : List (κ × α), (∀ p ∈ es, p.1 ≠ k) → es.map (fun p => if p.1 = k then (k, b) else p) = es :=
    fun es hes => (List.map_congr_left fun p hp => if_neg (hes p hp)).trans (List.map_id es)
  have hpre := hsame pre fun p hp => hother p (List.mem_append_left _ hp)
  have hpost := hsame post fun p hp => hother p (List.mem_append_right _ hp)
  simp only [List.map_append, List.map_cons, hpre, hpost, if_true, List.sum_append, List.sum_cons]
  omega

omit [DecidableEq κ] in
/-- counting is adding ones -/
theorem countP_eq_sum (l : List (κ × α)) (f : α → Bool) :
    l.countP (fun p => f p.2) = (l.map fun p => if f p.2 then 1 else 0).sum := by
  induction l with
  | nil => rfl
  | cons p l ih => rw [List.countP_cons, ih, List.map_cons, List.sum_cons, Nat.add_comm]

theorem countP_replace (hkeys : (l.map Prod.fst).Nodup) (h : l.lookup k = some a) (f : α → Bool) (b : α) :
    (l.map fun p => if p.1 = k then (k, b) else p).countP (fun p => f p.2) + (if f a then 1 else 0) =
      l.countP (fun p => f p.2) + if f b then 1 else 0 := by
  rw [countP_eq_sum, countP_eq_sum]
  exact sum_replace hkeys h (fun a => if f a then 1 else 0) b

theorem countP_replace_of_eq (hkeys : (l.map Prod.fst).Nodup) (h : l.lookup k = some a) {f : α → Bool} {b : α}
    (hf : f b = f a) :
    (l.map fun p => if p.1 = k then (k, b) else p).countP (fun p => f p.2) = l.countP fun p => f p.2 := by
  have hcount := countP_replace hkeys h f b
  rw [hf] at hcount
  exact Nat.add_right_cancel hcount

theorem lookup_remove (l : List (κ × α)) (k j : κ) :
    (l.filter fun p => p.1 ≠ k).lookup j = if j = k then none else l.lookup j := by
  induction l with
  | nil => simp
  | cons p l ih =>
    obtain ⟨i, d⟩ := p
    by_cases hi : i = k <;> by_cases hj : j = k <;> by_cases hji : j = i <;> grind

/-! ## New entries -/

theorem lookup_kept (hkeys : (l.map Prod.fst).Nodup) (p : κ × α → Bool) (k : κ) :
    (l.filter p).lookup k = (l.lookup k).filter fun a => p (k, a) := by
  cases hl : l.lookup k with
  | none => exact List.lookup_eq_none_iff.2 fun q hq => List.lookup_eq_none_iff.1 hl q (List.mem_of_mem_filter hq)
  | some a =>
    have hmem := mem_of_lookup hl
    cases hp : p (k, a) with
    | true =>
      rw [Option.filter_some, hp, if_pos rfl]
      exact lookup_of_mem (hkeys.sublist (List.filter_sublist.map _)) (List.mem_filter.2 ⟨hmem, hp⟩)
    | false =>
      rw [Option.filter_some, hp, if_neg Bool.false_ne_true]
      refine List.lookup_eq_none_iff.2 fun q hq => ?_
      obtain ⟨hq, hpq⟩ := List.mem_filter.1 hq
      rw [bne_iff_ne]
      rintro rfl
      obtain rfl : a = q.2 := Option.some.inj (hl.symm.trans (lookup_of_mem hkeys hq))
      exact Bool.false_ne_true (hp.symm.trans hpq)

theorem lookup_concat (h : l.lookup k = none) (a : α) (j : κ) :
    (l ++ [(k, a)]).lookup j = if j = k then some a else l.lookup j := by
  rw [List.lookup_append]
  split_ifs with hj
  · rw [hj, h]
    simp
  · simp [List.lookup_cons, beq_false_of_ne hj]

theorem any_concat_of_not (h : l.lookup k = none) {a : α} {f : α → Bool} (hf : f a = false) (j : κ) :
    ((l ++ [(k, a)]).lookup j).any f = (l.lookup j).any f := by
  rw [lookup_concat h]
  split_ifs with hj
  · rw [Option.any_some, hf, hj, h, Option.any_none]
  · rfl

theorem keys_concat (hkeys : (l.map Prod.fst).Nodup) (h : l.lookup k = none) (a : α) :
    ((l ++ [(k, a)]).map Prod.fst).Nodup := by
  rw [List.map_append, List.map_cons, List.map_nil, ← List.concat_eq_append]
  exact hkeys.concat (not_mem_keys_of_lookup h)

/-! ## Keys alone -/

theorem eraseDups_concat (ks : List κ) (k : κ) :
    (ks ++ [k]).eraseDups = if ks.eraseDups.contains k then ks.eraseDups else ks.eraseDups ++ [k] := by
  rw [List.eraseDups_append]
  by_cases hk : k ∈ ks
  · simp [hk, List.removeAll]
  · have hone : [k].eraseDups = [k] := rfl
    simp [hk, List.removeAll, hone]

/-- **Keys put last** unless they are there: each stands where it came first. -/
theorem foldl_concat (ks more : List κ) :
    more.foldl (fun l k => if l.contains k then l else l ++ [k]) ks.eraseDups = (ks ++ more).eraseDups := by
  induction more using List.reverseRecOn with
  | nil => rw [List.append_nil, List.foldl_nil]
  | append_singleton more k ih => rw [List.foldl_concat, ih, ← List.append_assoc, eraseDups_concat]

end Foreman.Keyed

/-
Slots are never given out beyond their number, and nobody is lost who asked for one.

Results:
- `Slots.arrive_fits`, `Slots.discard_fits`: whoever asks for a slot or goes away, no more are held than there are.
- `Slots.arrive_perm`, `Slots.discard_perm`: who asks for a slot is there, who goes away is gone, and the others stay.
- `Slots.arrive_keeps`, `Slots.discard_keeps`: nobody but who goes away loses a slot.
- `Slots.discard_arrive`: who asks for a slot and goes away again leaves no trace.
- `Slots.arrive_busy`, `Slots.discard_busy`: no slot is free while someone waits for one.
- `Slots.discard_cases`, `Slots.discard_handed`: a slot that is given back goes to the first in line.
- `Slots.Agrees`: the slots agree with what is known of those that have to do with them.
-/
import Mathlib.Tactic
import Foreman.Guard.Slots

namespace Foreman.Slots

variable {κ : Type} [DecidableEq κ]

/-- there are `n` slots, and no more are held -/
structure Fits (s : Slots κ) (n : Nat) : Prop where
  size : s.capacity = n
  held : s.holders.length ≤ n

omit [DecidableEq κ] in
theorem empty_fits (n : Nat) : Fits (empty n : Slots κ) (max n 1) := ⟨rfl, Nat.zero_le _⟩

variable {s : Slots κ} {n : Nat}

omit [DecidableEq κ] in
/-- **Whoever asks** gets a slot only if one is free. -/
theorem arrive_fits (h : s.Fits n) (k : κ) : (s.arrive k).Fits n := by
  obtain ⟨rfl, hle⟩ := h
  unfold arrive
  split_ifs with hfree
  · exact ⟨rfl, by simpa using hfree.1⟩
  · exact ⟨rfl, hle⟩

omit [DecidableEq κ] in
theorem grant_fits (h : s.Fits n) : s.grant.1.Fits n := by
  obtain ⟨rfl, hle⟩ := h
  unfold grant
  split_ifs with hfree
  · cases hl : s.line with
    | nil => exact ⟨rfl, hle⟩
    | cons k r => exact ⟨rfl, by simpa using hfree⟩
  · exact ⟨rfl, hle⟩

theorem release_fits (h : s.Fits n) (k : κ) : (s.release k).1.Fits n := by
  unfold release
  split_ifs
  · exact grant_fits ⟨h.size, List.length_erase_le.trans h.held⟩
  · exact h

/-- **Whoever goes away** leaves its slot to one other at most. -/
theorem discard_fits (h : s.Fits n) (k : κ) : (s.discard k).1.Fits n := by
  have hleave : (s.leave k).Fits n := ⟨h.size, h.held⟩
  exact release_fits hleave k

/-! ## Who is there -/

/-- those that hold a slot, and those that wait for one -/
def present (s : Slots κ) : List κ := s.holders ++ s.line

omit [DecidableEq κ] in
/-- **Who asks for a slot is there.** -/
theorem arrive_perm (s : Slots κ) (k : κ) : (s.arrive k).present.Perm (k :: s.present) := by
  unfold arrive present
  split_ifs
  · simp only [List.append_assoc]
    exact List.perm_middle
  · rw [← List.append_assoc]
    exact List.perm_append_singleton _ _

omit [DecidableEq κ] in
theorem arrive_keeps (s : Slots κ) (k : κ) : s.holders ⊆ (s.arrive k).holders := by
  unfold arrive
  split_ifs
  · exact List.subset_append_left _ _
  · exact List.Subset.refl _

omit [DecidableEq κ] in
theorem grant_present (s : Slots κ) : s.grant.1.present = s.present := by
  unfold grant present
  split_ifs
  · cases hl : s.line with
    | nil => simp [hl]
    | cons k r => simp
  · rfl

omit [DecidableEq κ] in
theorem grant_keeps (s : Slots κ) : s.holders ⊆ s.grant.1.holders := by
  unfold grant
  split_ifs
  · cases s.line with
    | nil => exact List.Subset.refl _
    | cons k r => exact List.subset_append_left _ _
  · exact List.Subset.refl _

/-- **Who goes away is gone**, and all others are there. -/
theorem discard_perm (h : s.present.Nodup) (k : κ) : (s.discard k).1.present.Perm (s.present.erase k) := by
  unfold discard release leave holds
  by_cases hk : k ∈ s.holders
  · have hline : k ∉ s.line := (List.disjoint_of_nodup_append h) hk
    rw [if_pos (by simpa using hk), grant_present]
    simp only [present, List.erase_append_left _ hk, List.erase_of_not_mem hline]
    exact List.Perm.refl _
  · rw [if_neg (by simpa using hk)]
    simp only [present, List.erase_append_right _ hk]
    exact List.Perm.refl _

/-- **Nobody but who goes away loses a slot.** -/
theorem discard_keeps (s : Slots κ) {j k : κ} (hj : j ∈ s.holders) (hne : j ≠ k) : j ∈ (s.discard k).1.holders := by
  unfold discard release leave
  split_ifs
  · exact grant_keeps _ ((List.mem_erase_of_ne hne).2 hj)
  · exact hj

/-! ## Coming and going -/

/-- a slot is free and nobody waits for it -/
def hasFree (s : Slots κ) : Bool := decide (s.holders.length < s.capacity) && s.line.isEmpty

/-- who asks for a slot has it at once exactly if one is free for it -/
theorem holds_arrive {k : κ} (h : k ∉ s.present) : (s.arrive k).holds k = s.hasFree := by
  obtain ⟨hholders, -⟩ := not_or.1 (List.mem_append.not.1 h)
  unfold arrive hasFree holds
  split_ifs with hfree
  · simp [hfree.1, hfree.2]
  · simpa [hholders] using hfree

/-- **Who asks for a slot and goes away again** leaves everything as it was, and nobody gets a slot by it. -/
theorem discard_arrive {k : κ} (h : k ∉ s.present) : (s.arrive k).discard k = (s, none) := by
  obtain ⟨hholders, hline⟩ := not_or.1 (List.mem_append.not.1 h)
  obtain ⟨capacity, holders, line⟩ := s
  unfold arrive
  split_ifs with hfree
  · -- the slot that comes back finds nobody in line
    obtain rfl : line = [] := by simpa using hfree.2
    simp [discard, leave, release, holds, grant, List.erase_append_right _ hholders]
  · simp [discard, leave, release, holds, hholders, List.erase_append_right _ hline]

theorem discard_absent {k : κ} (h : k ∉ s.present) : (s.discard k).1 = s := by
  obtain ⟨hholders, hline⟩ := not_or.1 (List.mem_append.not.1 h)
  simp [discard, leave, release, holds, hholders, List.erase_of_not_mem hline]

/-! ## Who gets a slot -/

/-- no slot is free while someone waits for one -/
def Busy (s : Slots κ) : Prop := s.line ≠ [] → s.capacity ≤ s.holders.length

omit [DecidableEq κ] in
theorem arrive_busy (h : s.Busy) (k : κ) : (s.arrive k).Busy := by
  unfold arrive
  split_ifs with hfree
  · intro hline
    exact absurd (List.isEmpty_iff.1 hfree.2) hline
  · intro _
    by_contra hlt
    have hline : s.line = [] := by
      by_contra hne
      exact hlt (h hne)
    exact hfree ⟨not_le.1 hlt, by simp [hline]⟩

omit [DecidableEq κ] in
/-- who has a slot that nobody had before found one free, and nobody in line -/
theorem arrive_handed {j k : κ} (hj : j ∉ s.holders) (hj' : j ∈ (s.arrive k).holders) : (s.arrive k).line = [] := by
  unfold arrive at hj' ⊢
  split_ifs at hj' ⊢ with hfree
  · exact List.isEmpty_iff.1 hfree.2
  · exact absurd hj' hj

/-- what becomes of the slot of one that goes away -/
inductive Discards (s : Slots κ) (k : κ) : Slots κ → Prop
  /-- it had none -/
  | none (hk : k ∉ s.holders) : Discards s k { s with line := s.line.erase k }
  /-- nobody waits for it -/
  | free (hk : k ∈ s.holders) (hline : s.capacity ≤ (s.holders.erase k).length ∨ s.line.erase k = []) :
      Discards s k { s with holders := s.holders.erase k, line := s.line.erase k }
  /-- the first in line gets it -/
  | handed (j : κ) (rest : List κ) (hk : k ∈ s.holders) (hline : s.line.erase k = j :: rest)
      (hfree : (s.holders.erase k).length < s.capacity) :
      Discards s k { s with holders := s.holders.erase k ++ [j], line := rest }

/-- **What becomes of the slot** of one that goes away. -/
theorem discard_cases (s : Slots κ) (k : κ) : Discards s k (s.discard k).1 := by
  unfold discard leave release holds
  split_ifs with hk
  · have hmem : k ∈ s.holders := by simpa using hk
    unfold grant
    split_ifs with hfree
    · dsimp only
      cases hline : s.line.erase k with
      | nil =>
        have h := Discards.free hmem (Or.inr hline)
        rwa [hline] at h
      | cons j rest => exact .handed j rest hmem hline hfree
    · exact .free hmem (Or.inl (not_lt.1 hfree))
  · exact .none (by simpa using hk)

theorem discard_busy (h : s.Busy) (k : κ) : (s.discard k).1.Busy := by
  have hwhole : s.line.erase k ≠ [] → s.capacity ≤ s.holders.length := fun hne => h fun hnil => hne (by simp [hnil])
  have hcases := s.discard_cases k
  generalize (s.discard k).1 = s' at hcases
  cases hcases with
  | none hk => exact hwhole
  | free hk hline =>
    intro hne
    exact hline.elim id fun hnil => absurd hnil hne
  | handed j rest hk hline hfree =>
    intro _
    have hlength := List.length_erase_add_one hk
    have hcapacity := hwhole (by simp [hline])
    show s.capacity ≤ (s.holders.erase k ++ [j]).length
    rw [List.length_append, List.length_singleton]
    omega

theorem discard_line (s : Slots κ) (k : κ) : (s.discard k).1.line.Sublist s.line := by
  have hcases := s.discard_cases k
  generalize (s.discard k).1 = s' at hcases
  cases hcases with
  | none => exact List.erase_sublist
  | free => exact List.erase_sublist
  | handed j rest hk hline => exact (hline ▸ List.sublist_cons_self j rest).trans List.erase_sublist

/-- **A slot that is given back goes to the first in line.** -/
theorem discard_handed {j k : κ} (hj : j ∉ s.holders) (hj' : j ∈ (s.discard k).1.holders) :
    s.line.erase k = j :: (s.discard k).1.line := by
  have hcases := s.discard_cases k
  generalize (s.discard k).1 = s' at hcases hj'
  cases hcases with
  | none => exact absurd hj' hj
  | free => exact absurd (List.mem_of_mem_erase hj') hj
  | handed i rest hk hline =>
    rcases List.mem_append.1 hj' with hmem | hmem
    · exact absurd (List.mem_of_mem_erase hmem) hj
    · rw [List.mem_singleton.1 hmem]
      exact hline

omit [DecidableEq κ] in
theorem arrive_line (s : Slots κ) (k : κ) : (s.arrive k).line.Sublist (s.line ++ [k]) := by
  unfold arrive
  split_ifs
  · exact List.sublist_append_left _ _
  · exact List.Sublist.refl _

/-! ## Slots and those that have to do with them -/

/-- the slots agree with what is known from elsewhere: `engaged` tells who has asked and not gone away, and `seated` who has
been told that it has a slot -/
structure Agrees (s : Slots κ) (n : Nat) (engaged seated : κ → Bool) : Prop where
  fits : s.Fits n
  once : s.present.Nodup
  engaged : ∀ k, k ∈ s.present ↔ engaged k = true
  seated : ∀ k, seated k = true → k ∈ s.holders

namespace Agrees

variable {engaged seated engaged' seated' : κ → Bool} {k : κ}

omit [DecidableEq κ] in
theorem absent (h : s.Agrees n engaged seated) (hk : engaged k = false) : k ∉ s.present := fun hmem => by
  simp [(h.engaged k).1 hmem] at hk

omit [DecidableEq κ] in
theorem stay (h : s.Agrees n engaged seated) (hengaged : ∀ j, engaged' j = engaged j)
    (hseated : ∀ j, seated' j = true → seated j = true ∨ j ∈ s.holders) : s.Agrees n engaged' seated' :=
  ⟨h.fits, h.once, fun j => by rw [hengaged]; exact h.engaged j, fun j hj => (hseated j hj).elim (h.seated j) id⟩

theorem arrive (h : s.Agrees n engaged seated) (hk : engaged k = false)
    (hengaged : ∀ j, engaged' j = if j = k then true else engaged j)
    (hseated : ∀ j, seated' j = true → j ≠ k ∧ seated j = true ∨ j ∈ (s.arrive k).holders) :
    (s.arrive k).Agrees n engaged' seated' := by
  have hperm := s.arrive_perm k
  refine ⟨arrive_fits h.fits k, ?_, fun j => ?_, fun j hj => ?_⟩
  · exact hperm.nodup_iff.2 (List.nodup_cons.2 ⟨h.absent hk, h.once⟩)
  · rw [hperm.mem_iff, List.mem_cons, hengaged, h.engaged]
    split_ifs with hjk <;> simp [hjk]
  · exact (hseated j hj).elim (fun hold => s.arrive_keeps k (h.seated j hold.2)) id

theorem discard (h : s.Agrees n engaged seated) (hengaged : ∀ j, engaged' j = if j = k then false else engaged j)
    (hseated : ∀ j, seated' j = true → j ≠ k ∧ seated j = true) : (s.discard k).1.Agrees n engaged' seated' := by
  have hperm := discard_perm h.once k
  refine ⟨discard_fits h.fits k, hperm.nodup_iff.2 (h.once.erase k), fun j => ?_, fun j hj => ?_⟩
  · rw [hperm.mem_iff, h.once.mem_erase_iff, hengaged, h.engaged]
    split_ifs with hjk <;> simp [hjk]
  · exact s.discard_keeps (h.seated j (hseated j hj).2) (hseated j hj).1

end Agrees

end Foreman.Slots

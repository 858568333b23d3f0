/-
When the finding ids of todos point to standing findings.

They do on a boundary of a loop exactly as long as no task has brought a batch that overtakes itself: one whose
retained ids are attached although a later finding of the same batch has displaced one of them. What one batch
displaces of an earlier one is followed in all todos, so a batch is the only place where a link can break.

Results:
- `linked_unless_overtaken`:  the boundaries of every run of either loop.
- `dangling_after_one_batch`: a run of either loop with a todo that points to a displaced finding.
-/
import Mathlib.Tactic
import Foreman.Proofs.Loop.ReviewLinks
import Foreman.Proofs.Loop.WorkLinks

namespace Foreman.Loop

variable {ω : Type}

/-- **The links hold unless a batch has overtaken itself.** Take either loop with todos that hold no finding ids, in
any world. After any number of steps every finding id of every todo is the id of a standing finding, exactly if none
of the batches that tasks have brought so far overtakes itself in the ledger that it met. -/
theorem linked_unless_overtaken (w : World ω) (s : Settings) (registry : Registry) (id : String) (observers : Nat)
    (hasStore : Bool) (todos : List Todo) (htodos : ∀ t ∈ todos, t.findingIds = []) (nextId : Nat) (world : ω)
    (n : Nat) :
    (∀ digest goal changes r,
        WorkLoop.begin s registry id observers hasStore (.start goal changes todos nextId) world = .ok r →
          ((WorkLoop.boundary w digest s n r).Linked ↔
            ∀ q ∈ WorkLoop.offered w digest s n r, ¬ q.1.Overtakes q.2)) ∧
      ∀ brief description r,
        ReviewLoop.begin s registry id observers hasStore (.start description todos nextId) world = .ok r →
          ((ReviewLoop.boundary w s brief n r).Linked ↔
            ∀ q ∈ ReviewLoop.offered w s brief n r, ¬ q.1.Overtakes q.2) := by
  constructor
  · intro digest goal changes r h
    obtain ⟨hk, hl⟩ := WorkLoop.begin_kept htodos h
    exact (WorkLoop.boundary_linked n hk).trans (and_iff_right hl)
  · intro brief description r h
    obtain ⟨hk, hl⟩ := ReviewLoop.begin_kept htodos h
    exact (ReviewLoop.boundary_linked n hk).trans (and_iff_right hl)

/-! ## One batch is enough -/

/-- a report of one issue under an id -/
def sighting (id : String) (confidence : Int) : Report :=
  { Report.blank with
    id := some id, severity := "high", confidence := .int confidence, evidence := "line 3", file := some "a.py" }

/-- a world in which every task brings the same reports -/
def reporting (reports : List Report) : World Unit where
  perform := fun _ _ running => ((), running.map fun p => (p.1, some (.ok { Payload.blank with findings := reports })))
  clock := fun _ => 0

def lone : List Todo := [.fresh (.given "t") "review" .high]

def lookOnce : Except LoopError (WorkLoop.Run Unit) :=
  WorkLoop.begin {} .standard "work" 0 false (.start "look" ⟨["a.py"]⟩ lone 0) ()

def reviewOnce : Except LoopError (ReviewLoop.Run Unit) :=
  ReviewLoop.begin {} .standard "review" 0 false (.start "look" lone 0) ()

instance (r : WorkLoop.Run ω) : Decidable r.Linked := by unfold WorkLoop.Run.Linked; infer_instance

instance (r : ReviewLoop.Run ω) : Decidable r.Linked := by unfold ReviewLoop.Run.Linked; infer_instance

theorem exists_ok {ε α : Type} {x : Except ε α} {P : α → Prop} (h : ∃ a ∈ x.toOption, P a) : ∃ a, x = .ok a ∧ P a := by
  cases x with
  | ok a => obtain ⟨b, hb, hp⟩ := h; cases hb; exact ⟨a, rfl, hp⟩
  | error e => obtain ⟨b, hb, -⟩ := h; cases hb

/-- with the more confident report last the batch overtakes itself, with it first it does not -/
theorem linked_unless_overtaken_order :
    (∃ r, lookOnce = .ok r ∧
        ∃ q ∈ WorkLoop.offered (reporting [sighting "a" 0, sighting "b" 1]) (fun x => x) {} 3 r,
          q.1.Overtakes q.2) ∧
      ∃ r, lookOnce = .ok r ∧
        ∀ q ∈ WorkLoop.offered (reporting [sighting "b" 1, sighting "a" 0]) (fun x => x) {} 3 r,
          ¬ q.1.Overtakes q.2 := by
  have htodos : ∀ t ∈ lone, t.findingIds = [] := by decide
  constructor
  · obtain ⟨r, hr, hl⟩ : ∃ r, lookOnce = .ok r ∧
        ¬ (WorkLoop.boundary (reporting [sighting "a" 0, sighting "b" 1]) (fun x => x) {} 3 r).Linked :=
      exists_ok (by decide +kernel)
    refine ⟨r, hr, ?_⟩
    by_contra hno
    exact hl (((linked_unless_overtaken _ {} .standard "work" 0 false lone htodos 0 () 3).1 _ "look" _ r hr).2
      fun q hq ho => hno ⟨q, hq, ho⟩)
  · obtain ⟨r, hr, hl⟩ : ∃ r, lookOnce = .ok r ∧
        (WorkLoop.boundary (reporting [sighting "b" 1, sighting "a" 0]) (fun x => x) {} 3 r).Linked :=
      exists_ok (by decide +kernel)
    exact ⟨r, hr, ((linked_unless_overtaken _ {} .standard "work" 0 false lone htodos 0 () 3).1 _ "look" _ r hr).1 hl⟩

/-- **One batch can leave a todo that points to a displaced finding**, in either loop -/
theorem dangling_after_one_batch :
    (∃ r, lookOnce = .ok r ∧
        ¬ (WorkLoop.boundary (reporting [sighting "a" 0, sighting "b" 1]) (fun x => x) {} 3 r).Linked) ∧
      ∃ r, reviewOnce = .ok r ∧
        ¬ (ReviewLoop.boundary (reporting [sighting "a" 0, sighting "b" 1]) {} ⟨.ok ⟨["a.py"]⟩, []⟩ 4 r).Linked :=
  ⟨exists_ok (by decide +kernel), exists_ok (by decide +kernel)⟩

end Foreman.Loop

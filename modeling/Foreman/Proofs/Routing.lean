/-
Who gets a piece of work.

A kind weighs as much as those of its keywords that occur in the small letters of a description, each counted once. The
kind with the greatest weight wins, the first declared among equals (`SubagentKind.Wins`), so that there is one winner at
most. There is none exactly when no keyword of any kind occurs, and then alone the fallback has a say.

The kinds are looked at in the order in which they are declared, and the best so far only gives way to a greater weight.
`Leads` says what it is worth after each step: it is above all that came before it, and not below what came after.

A registry goes by the last agent that each kind was bound to, and by the last fallback that was named.

Results:
- `route_iff`:      which kind a description goes to, for every fallback.
- `build_binding`:  what a registry knows after any bindings and fallbacks.
- `routed_to_best`: which agent a description goes to.
-/
import Mathlib.Tactic
import Foreman.Proofs.Text
import Foreman.Routing

namespace Foreman

theorem Text.occurs_iff (w t : List Char) : Text.occurs w t = true ↔ w <:+: t := by
  rw [Text.occurs, Text.cut?_isSome_iff]
  constructor
  · rintro ⟨a, b, rfl⟩
    exact ⟨a, b, rfl⟩
  · rintro ⟨a, b, rfl⟩
    exact ⟨a, b, rfl⟩

namespace SubagentKind

/-! ## Weights -/

def hits (small : List Char) (k : SubagentKind) : List (String × Nat) :=
  k.keywords.filter fun w => w.1.toList <:+: small

/-- what the keywords of a kind that occur in a text weigh together -/
def weight (small : List Char) (k : SubagentKind) : Nat := ((hits small k).map Prod.snd).sum

/-- no keyword of any kind occurs in a text -/
def Wordless (small : List Char) : Prop := ∀ k : SubagentKind, ∀ w ∈ k.keywords, ¬w.1.toList <:+: small

theorem foldl_weights (small : List Char) (ws : List (String × Nat)) (n : Nat) :
    ws.foldl (fun n w => if Text.occurs w.1.toList small then n + w.2 else n) n =
      n + ((ws.filter fun w => w.1.toList <:+: small).map Prod.snd).sum := by
  induction ws generalizing n with
  | nil => rfl
  | cons w ws ih =>
    rw [List.foldl_cons, ih]
    by_cases hw : w.1.toList <:+: small
    · simp [(Text.occurs_iff _ _).2 hw, hw, Nat.add_assoc]
    · simp [mt (Text.occurs_iff _ _).1 hw, hw]

theorem score_eq_weight (small : List Char) (k : SubagentKind) : k.score small = weight small k := by
  rw [score, foldl_weights, Nat.zero_add]
  rfl

theorem keywords_nodup (k : SubagentKind) : (k.keywords.map Prod.fst).Nodup := by
  cases k <;> decide

/-- every keyword weighs something -/
theorem keywords_pos (k : SubagentKind) : ∀ w ∈ k.keywords, 0 < w.2 := by
  cases k <;> decide

theorem weight_eq_zero {small : List Char} {k : SubagentKind} :
    weight small k = 0 ↔ ∀ w ∈ k.keywords, ¬w.1.toList <:+: small := by
  rw [weight, List.sum_eq_zero_iff]
  simp only [hits, List.forall_mem_map, List.mem_filter, decide_eq_true_eq]
  constructor
  · intro h w hw hoccurs
    exact (keywords_pos k w hw).ne' (h w ⟨hw, hoccurs⟩)
  · rintro h w ⟨hw, hoccurs⟩
    exact absurd hoccurs (h w hw)

/-! ## The winner -/

def place (k : SubagentKind) : Nat := all.idxOf k

theorem mem_all (k : SubagentKind) : k ∈ all := by cases k <;> decide

theorem places_ascend : all.Pairwise fun k k' => place k < place k' := by decide

theorem place_inj {k k' : SubagentKind} (h : place k = place k') : k = k' := (List.idxOf_inj (mem_all k)).1 h

/-- a keyword of the kind occurs, no kind weighs more, and those that weigh as much are declared later -/
structure Wins (small : List Char) (k : SubagentKind) : Prop where
  hit : ∃ w ∈ k.keywords, w.1.toList <:+: small
  most : ∀ k', weight small k' ≤ weight small k
  first : ∀ k', weight small k' = weight small k → place k ≤ place k'

theorem Wins.unique {small : List Char} {k k' : SubagentKind} (h : Wins small k) (h' : Wins small k') : k = k' := by
  have hweight : weight small k' = weight small k := le_antisymm (h.most k') (h'.most k)
  exact place_inj (le_antisymm (h.first k' hweight) (h'.first k hweight.symm))

theorem Wins.not_wordless {small : List Char} {k : SubagentKind} (h : Wins small k) : ¬Wordless small := by
  obtain ⟨w, hw, hoccurs⟩ := h.hit
  exact fun hnone => hnone k w hw hoccurs

/-! ## One kind after the other -/

/-- the best of some kinds: none if no keyword occurs, else one that is above those before it and not below those after it
-/
inductive Leads (small : List Char) (ks : List SubagentKind) : Option SubagentKind → Prop
  | nobody (h : ∀ k ∈ ks, weight small k = 0) : Leads small ks none
  | leader (before : List SubagentKind) (b : SubagentKind) (after : List SubagentKind) (hks : ks = before ++ b :: after)
      (hpos : 0 < weight small b) (hbefore : ∀ k ∈ before, weight small k < weight small b)
      (hafter : ∀ k ∈ after, weight small k ≤ weight small b) : Leads small ks (some b)

theorem Leads.better {small : List Char} {ks : List SubagentKind} {best : Option SubagentKind}
    (h : Leads small ks best) (k : SubagentKind) : Leads small (ks ++ [k]) (SubagentKind.better small best k) := by
  cases h with
  | nobody hnone =>
    simp only [SubagentKind.better, score_eq_weight]
    split_ifs with hpos
    · exact .leader ks k [] rfl hpos (fun k' hk' => (hnone k' hk').symm ▸ hpos) (by simp)
    · refine .nobody fun k' hk' => ?_
      rcases List.mem_append.1 hk' with hk' | hk'
      · exact hnone k' hk'
      · rw [List.mem_singleton.1 hk']
        omega
  | leader before b after hks hpos hbefore hafter =>
    subst hks
    simp only [SubagentKind.better, score_eq_weight]
    split_ifs with hmore
    · refine .leader (before ++ b :: after) k [] rfl (by omega) (fun k' hk' => ?_) (by simp)
      rcases List.mem_append.1 hk' with hk' | hk'
      · exact (hbefore k' hk').trans hmore
      · rcases List.mem_cons.1 hk' with rfl | hk'
        · exact hmore
        · exact (hafter k' hk').trans_lt hmore
    · refine .leader before b (after ++ [k]) (by simp) hpos hbefore fun k' hk' => ?_
      rcases List.mem_append.1 hk' with hk' | hk'
      · exact hafter k' hk'
      · rw [List.mem_singleton.1 hk']
        omega

theorem leads_foldl (small : List Char) (ks : List SubagentKind) :
    Leads small ks (ks.foldl (SubagentKind.better small) none) := by
  induction ks using List.reverseRecOn with
  | nil => exact .nobody (by simp)
  | append_singleton ks k ih =>
    rw [List.foldl_append]
    exact ih.better k

theorem Leads.wins {small : List Char} {k : SubagentKind} (h : Leads small all (some k)) : Wins small k := by
  cases h with
  | leader before _ after hall hpos hbefore hafter =>
    have hplace : ∀ k' ∈ after, place k < place k' := by
      have hascend := places_ascend
      rw [hall, List.pairwise_append, List.pairwise_cons] at hascend
      exact hascend.2.1.1
    have hwhere : ∀ k', k' ∈ before ∨ k' = k ∨ k' ∈ after := by
      intro k'
      have hmem := mem_all k'
      rwa [hall, List.mem_append, List.mem_cons] at hmem
    refine ⟨?_, fun k' => ?_, fun k' heq => ?_⟩
    · by_contra hnone
      push Not at hnone
      exact hpos.ne' (weight_eq_zero.2 hnone)
    · rcases hwhere k' with hk' | rfl | hk'
      · exact (hbefore k' hk').le
      · exact le_rfl
      · exact hafter k' hk'
    · rcases hwhere k' with hk' | rfl | hk'
      · exact absurd heq (hbefore k' hk').ne
      · exact le_rfl
      · exact (hplace k' hk').le

/-- **Which kind a description goes to**: the one that wins, or the fallback if no keyword occurs. -/
theorem route_iff (description : String) (fallback k : SubagentKind) :
    route description fallback = k ↔
      Wins (Text.lowerChars description.toList) k ∨ Wordless (Text.lowerChars description.toList) ∧ k = fallback := by
  have hlead := leads_foldl (Text.lowerChars description.toList) all
  rw [route]
  generalize Text.lowerChars description.toList = small at hlead ⊢
  cases hbest : all.foldl (SubagentKind.better small) none with
  | none =>
    rw [hbest] at hlead
    cases hlead with
    | nobody hnone =>
      have hwordless : Wordless small := fun k' => weight_eq_zero.1 (hnone k' (mem_all k'))
      have hno : ¬Wins small k := fun h => h.not_wordless hwordless
      rw [Option.getD_none, or_iff_right hno, and_iff_right hwordless, eq_comm]
  | some b =>
    rw [hbest] at hlead
    have hwins := hlead.wins
    rw [Option.getD_some, or_iff_left fun h => hwins.not_wordless h.1]
    exact ⟨fun h => h ▸ hwins, hwins.unique⟩

/-- **The fallback has a say exactly if no keyword occurs.** -/
theorem route_fallback_iff (description : String) :
    (∀ fallback, route description fallback = fallback) ↔ Wordless (Text.lowerChars description.toList) := by
  constructor
  · intro h
    -- a winner would have to be every kind
    by_contra hwords
    have hwins : ∀ fallback, Wins (Text.lowerChars description.toList) fallback := fun fallback =>
      ((route_iff description fallback fallback).1 (h fallback)).resolve_right fun hno => hwords hno.1
    exact absurd ((hwins .testing).unique (hwins .bugFix)) (by decide)
  · intro h fallback
    exact (route_iff description fallback fallback).2 (Or.inr ⟨h, rfl⟩)

end SubagentKind

namespace Registry

/-! ## Building a registry -/

/-- what a registry is told while it is built -/
inductive Part where
  | bind (kind : SubagentKind) (name resource : String)
  | fallback (kind : SubagentKind)
deriving DecidableEq, Repr

def add (r : Registry) : Part → Registry
  | .bind kind name resource => r.bind kind name resource
  | .fallback kind => r.withFallback kind

def build (start : Registry) (parts : List Part) : Registry := parts.foldl add start

/-- the binding of a kind that a part makes -/
def Part.binding? (k : SubagentKind) : Part → Option Binding
  | .bind kind name resource => if kind = k then some ⟨k, name, resource⟩ else none
  | .fallback _ => none

/-- the fallback that a part names -/
def Part.fallback? : Part → Option SubagentKind
  | .bind .. => none
  | .fallback kind => some kind

/-- the binding of a kind: the last one that was made, or the one at the start -/
def bound? (start : Registry) (parts : List Part) (k : SubagentKind) : Option Binding :=
  (parts.reverse.findSome? (Part.binding? k)).or (start.binding k)

/-- the fallback: the last one that was named, or the one at the start -/
def fallbackOf (start : Registry) (parts : List Part) : SubagentKind :=
  (parts.reverse.findSome? Part.fallback?).getD start.fallback

variable (start : Registry) (parts : List Part)

theorem build_snoc (p : Part) : start.build (parts ++ [p]) = (start.build parts).add p := by
  simp [build]

/-- **A registry knows the last binding of each kind** and the last fallback. -/
theorem build_binding (k : SubagentKind) :
    (start.build parts).binding k = start.bound? parts k ∧ (start.build parts).fallback = start.fallbackOf parts := by
  induction parts using List.reverseRecOn with
  | nil => exact ⟨rfl, rfl⟩
  | append_singleton parts p ih =>
    obtain ⟨hbinding, hfallback⟩ := ih
    rw [build_snoc, bound?, fallbackOf, List.reverse_append]
    cases p with
    | bind kind name resource =>
      refine ⟨?_, hfallback⟩
      by_cases hk : kind = k
      · simp [add, bind, Part.binding?, hk]
      · simp [add, bind, Part.binding?, hk, Ne.symm hk, hbinding, bound?]
    | fallback kind => exact ⟨hbinding, rfl⟩

/-! ## The agent of a description -/

/-- where a registry sends a description, by its kind and the fallback -/
structure Directs (description : String) (kind fallback : SubagentKind) : Prop where
  /-- to the agent of its kind, if that is bound -/
  bound : ∀ b, start.bound? parts kind = some b → (start.build parts).route description = .ok b
  /-- else to the agent of the fallback, if that is bound -/
  unbound : ∀ b, start.bound? parts kind = none → start.bound? parts fallback = some b →
    (start.build parts).route description = .ok b
  /-- else to no one: the kind is named -/
  fails : ∀ e, (start.build parts).route description = .error e ↔
    e = .unknownSubagent kind.name ∧ start.bound? parts kind = none ∧ start.bound? parts fallback = none

/-- **Which agent a description goes to**: that of its kind, else that of the fallback. -/
theorem directs (description : String) :
    Directs start parts description (SubagentKind.route description (start.fallbackOf parts))
      (start.fallbackOf parts) := by
  have hbinding : ∀ k, (start.build parts).binding k = start.bound? parts k := fun k =>
    (build_binding start parts k).1
  have hfallback : (start.build parts).fallback = start.fallbackOf parts := (build_binding start parts default).2
  generalize hkind : SubagentKind.route description (start.fallbackOf parts) = kind
  have hroute : (start.build parts).route description =
      ((start.bound? parts kind).or (start.bound? parts (start.fallbackOf parts))).elim
        (.error (.unknownSubagent kind.name)) .ok := by
    rw [route, hfallback, hkind, hbinding, hbinding]
    cases (start.bound? parts kind).or (start.bound? parts (start.fallbackOf parts)) with
    | none => rfl
    | some b => rfl
  refine ⟨fun b hb => ?_, fun b hnone hb => ?_, fun e => ?_⟩
  · rw [hroute, hb]
    rfl
  · rw [hroute, hnone, hb]
    rfl
  · rw [hroute]
    cases start.bound? parts kind with
    | some b => simp
    | none =>
      cases start.bound? parts (start.fallbackOf parts) with
      | some b => simp
      | none => simp [eq_comm]

end Registry

/-- where a description goes -/
structure Routed (description : String) : Prop where
  /-- its kind is the one that wins, or the fallback if no keyword occurs -/
  kind : ∀ fallback k, SubagentKind.route description fallback = k ↔
    SubagentKind.Wins (Text.lowerChars description.toList) k ∨
      SubagentKind.Wordless (Text.lowerChars description.toList) ∧ k = fallback
  /-- no keyword is counted twice for a kind -/
  once : ∀ k : SubagentKind, (k.keywords.map Prod.fst).Nodup
  /-- only where no keyword occurs has the fallback a say -/
  fallback : (∀ fallback, SubagentKind.route description fallback = fallback) ↔
    SubagentKind.Wordless (Text.lowerChars description.toList)
  /-- its agent, in a registry after any bindings and fallbacks -/
  agent : ∀ (start : Registry) (parts : List Registry.Part),
    start.Directs parts description (SubagentKind.route description (start.fallbackOf parts)) (start.fallbackOf parts)

/-- **A description goes to the best kind, and from there to its agent.** -/
theorem routed_to_best (description : String) : Routed description where
  kind := SubagentKind.route_iff description
  once := SubagentKind.keywords_nodup
  fallback := SubagentKind.route_fallback_iff description
  agent := fun start parts => Registry.directs start parts description

/-- keywords within keywords count too, and the first declared of two kinds that weigh the same wins -/
example :
    SubagentKind.route "Debug the prefix" .testing = .bugFix ∧
      SubagentKind.weight "debug the prefix".toList .bugFix = 27 ∧
      SubagentKind.route "Review the TEST" .documentation = .codeReview := by
  decide +kernel

end Foreman

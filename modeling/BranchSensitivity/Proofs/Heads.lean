import Mathlib.Data.Finset.Card
import BranchSensitivity.Proofs.Trials

/-!
# The heads of a statement

Collecting heads is a depth-first search that marks each position it enters as seen and never
enters a seen position again. Every call that does work marks one more position of the test, so
the depth of the search is bounded by the number of positions not yet seen: its fuel is a
variant, not a budget, and any two fuels above that number give the same collection, state of
the random source included.

    t.len < fuel → t.collectHeads fuel p ([], []) s = t.collectHeads (t.len + 1) p ([], []) s

A head is recorded only when its position is entered for the first time, and only for a
primitive statement. So the heads of a statement are distinct primitive statements of the test;
a primitive statement is its own one head, and a null statement or a position out of range has
none.
-/

namespace BranchSensitivity

open BranchSensitivity.Random

/-! ## Folds that agree on the states they reach -/

section StateRuns

variable {σ α β : Type}

/-- Two steps that agree on every accumulator of an invariant the first keeps fold alike. -/
theorem foldlM_congr {f g : β → α → StateM σ β} (J : β → Prop)
    (hJ : ∀ acc x s, J acc → J (f acc x s).1) (hfg : ∀ acc x s, J acc → f acc x s = g acc x s) :
    ∀ (l : List α) (acc : β) (s : σ), J acc → l.foldlM f acc s = l.foldlM g acc s := by
  intro l
  induction l with
  | nil => intro acc s _; rfl
  | cons x xs ih =>
    intro acc s h
    simp only [List.foldlM_cons, bind, StateT.bind]
    rw [← hfg acc x s h]
    have hJ' := hJ acc x s h
    rcases hx : f acc x s with ⟨acc', s'⟩
    rw [hx] at hJ'
    exact ih acc' s' hJ'

end StateRuns

namespace TestCase

/-! ## One step of the search -/

/-- One feeder of a search with `fuel` left: unwrapped to its root value statement, whose heads
are collected next. -/
def feedHeads (t : TestCase) (fuel : Nat) (acc : List Nat × List Nat) (f : Nat) :
    Draw (List Nat × List Nat) := do
  match ← t.rootValue f with
  | some q => t.collectHeads fuel q acc
  | none => pure acc

theorem collectHeads_succ (t : TestCase) (fuel p : Nat) (seen heads : List Nat) :
    t.collectHeads (fuel + 1) p (seen, heads) =
      if seen.contains p then pure (seen, heads)
      else match t.get? p with
        | none => pure (p :: seen, heads)
        | some st =>
          if st.isPrimitive then pure (p :: seen, heads ++ [p])
          else (t.feeders p st).foldlM (t.feedHeads fuel) (p :: seen, heads) := rfl

/-- What every first visit and every head found keeps holds after a search. -/
theorem collectHeads_inv (t : TestCase) (I : List Nat × List Nat → Prop)
    (hvisit : ∀ p seen heads, p ∉ seen → I (seen, heads) → I (p :: seen, heads))
    (hhead : ∀ p st seen heads, p ∉ seen → t.get? p = some st → st.isPrimitive = true →
      I (seen, heads) → I (p :: seen, heads ++ [p])) :
    ∀ fuel p acc s, I acc → I (t.collectHeads fuel p acc s).1 := by
  intro fuel
  induction fuel with
  | zero => intro p acc s h; exact h
  | succ fuel ih =>
    intro p acc s h
    obtain ⟨seen, heads⟩ := acc
    rw [collectHeads_succ]
    by_cases hc : seen.contains p
    · rw [if_pos hc]
      exact h
    · rw [if_neg hc]
      have hp : p ∉ seen := by simpa using hc
      cases hst : t.get? p with
      | none => exact hvisit p seen heads hp h
      | some st =>
        dsimp only
        by_cases hprim : st.isPrimitive
        · rw [if_pos hprim]
          exact hhead p st seen heads hp hst hprim h
        · rw [if_neg hprim]
          -- the feeders are searched one after another from the state of the visit
          refine foldlM_run (fun _ acc _ => I acc) ?_ _ _ s (hvisit p seen heads hp h)
          intro _ f acc s' hacc
          simp only [feedHeads, bind, StateT.bind]
          rcases t.rootValue f s' with ⟨o, s''⟩
          cases o with
          | none => exact hacc
          | some q => exact ih q acc s'' hacc

/-- A search only adds to the positions seen. -/
theorem collectHeads_seen (t : TestCase) (fuel p : Nat) (acc : List Nat × List Nat) (s : Rng) :
    acc.1 ⊆ (t.collectHeads fuel p acc s).1.1 :=
  t.collectHeads_inv (fun a => acc.1 ⊆ a.1)
    (fun _ _ _ _ h => List.Subset.trans h (List.subset_cons_self _ _))
    (fun _ _ _ _ _ _ _ h => List.Subset.trans h (List.subset_cons_self _ _)) fuel p acc s
    (List.Subset.refl _)

/-! ## The fuel is a variant -/

/-- The positions of the test not seen yet. -/
def unseen (t : TestCase) (seen : List Nat) : Nat := (Finset.range t.len \ seen.toFinset).card

theorem unseen_nil (t : TestCase) : t.unseen [] = t.len := by
  simp [unseen]

/-- Seeing a position of the test for the first time leaves fewer unseen. -/
theorem unseen_lt (t : TestCase) {p : Nat} {seen seen' : List Nat} (hp : p < t.len)
    (hnot : p ∉ seen) (h : p :: seen ⊆ seen') : t.unseen seen' < t.unseen seen := by
  apply Finset.card_lt_card
  refine Finset.ssubset_iff_of_subset (Finset.sdiff_subset_sdiff (Finset.Subset.refl _)
    (fun x hx => List.mem_toFinset.mpr (h (List.mem_cons_of_mem p (List.mem_toFinset.mp hx)))))
    |>.mpr ?_
  refine ⟨p, ?_, ?_⟩
  · simp [hp, hnot]
  · simp [h (List.mem_cons_self)]

/-- **The fuel is a variant, not a budget.** Two searches whose fuels both exceed the number of
positions not yet seen give the same result. -/
theorem collectHeads_congr (t : TestCase) : ∀ (fuel₁ fuel₂ p : Nat) (acc : List Nat × List Nat)
    (s : Rng), t.unseen acc.1 < fuel₁ → t.unseen acc.1 < fuel₂ →
    t.collectHeads fuel₁ p acc s = t.collectHeads fuel₂ p acc s := by
  intro fuel₁
  induction fuel₁ with
  | zero => intro _ _ _ _ h₁; omega
  | succ a ih =>
    intro fuel₂ p acc s h₁ h₂
    obtain ⟨b, rfl⟩ : ∃ b, fuel₂ = b + 1 := ⟨fuel₂ - 1, by omega⟩
    obtain ⟨seen, heads⟩ := acc
    dsimp only at h₁ h₂
    rw [collectHeads_succ, collectHeads_succ]
    by_cases hc : seen.contains p
    · rw [if_pos hc, if_pos hc]
    · rw [if_neg hc, if_neg hc]
      have hp : p ∉ seen := by simpa using hc
      cases hst : t.get? p with
      | none => rfl
      | some st =>
        dsimp only
        by_cases hprim : st.isPrimitive
        · rw [if_pos hprim, if_pos hprim]
        · rw [if_neg hprim, if_neg hprim]
          have hlt : p < t.len := (List.getElem?_eq_some_iff.mp hst).1
          -- every search of a feeder starts with `p` seen, so with fewer positions unseen
          refine foldlM_congr (fun acc => p :: seen ⊆ acc.1) ?_ ?_ _ _ s (List.Subset.refl _)
          · intro acc f s' hacc
            simp only [feedHeads, bind, StateT.bind]
            rcases t.rootValue f s' with ⟨o, s''⟩
            cases o with
            | none => exact hacc
            | some q => exact List.Subset.trans hacc (t.collectHeads_seen a q acc s'')
          · intro acc f s' hacc
            have hu := t.unseen_lt hlt hp hacc
            simp only [feedHeads, bind, StateT.bind]
            rcases t.rootValue f s' with ⟨o, s''⟩
            cases o with
            | none => rfl
            | some q => exact ih b q acc s'' (by omega) (by omega)

/-! ## The heads found -/

/-- The heads found so far are distinct, seen, and primitive statements of the test. -/
def HeadsFound (t : TestCase) (acc : List Nat × List Nat) : Prop :=
  acc.2.Nodup ∧ ∀ h ∈ acc.2, h ∈ acc.1 ∧ ∃ st, t.get? h = some st ∧ st.isPrimitive = true

theorem headsFound_collectHeads (t : TestCase) (fuel p : Nat) (acc : List Nat × List Nat)
    (s : Rng) (h : t.HeadsFound acc) : t.HeadsFound (t.collectHeads fuel p acc s).1 := by
  refine t.collectHeads_inv t.HeadsFound ?_ ?_ fuel p acc s h
  · intro p seen heads _ hf
    exact ⟨hf.1, fun h hh => ⟨List.mem_cons_of_mem p (hf.2 h hh).1, (hf.2 h hh).2⟩⟩
  · -- a new head is unseen, so none of the heads found so far
    intro p st seen heads hp hst hprim hf
    refine ⟨List.nodup_append.mpr ⟨hf.1, List.nodup_singleton p, ?_⟩, ?_⟩
    · intro h hh q hq
      rw [List.mem_singleton] at hq
      subst hq
      exact fun he => hp (he ▸ (hf.2 h hh).1)
    · intro h hh
      rcases List.mem_append.mp hh with hh | hh
      · exact ⟨List.mem_cons_of_mem p (hf.2 h hh).1, (hf.2 h hh).2⟩
      · rw [List.mem_singleton] at hh
        subst hh
        exact ⟨List.mem_cons_self, st, hst, hprim⟩

theorem headStatements_fst (t : TestCase) (p : Nat) (s : Rng) :
    (t.headStatements p s).1 = (t.collectHeads (t.len + 1) p ([], []) s).1.2 := rfl

/-- **The heads of a statement.** The search ends within its fuel: any larger fuel gives the
same collection. The heads are distinct primitive statements of the test; a primitive statement
is its own one head, and a position out of range or holding null has none. -/
theorem headStatements_distinct_primitive (t : TestCase) (p : Nat) (s : Rng) :
    (∀ fuel, t.len < fuel →
      t.collectHeads fuel p ([], []) s = t.collectHeads (t.len + 1) p ([], []) s) ∧
    (t.headStatements p s).1.Nodup ∧
    (∀ h ∈ (t.headStatements p s).1, ∃ st, t.get? h = some st ∧ st.isPrimitive = true) ∧
    (∀ st, t.get? p = some st → st.isPrimitive = true → (t.headStatements p s).1 = [p]) ∧
    (t.len ≤ p → (t.headStatements p s).1 = []) ∧
    (∀ st, t.get? p = some st → st.isNull = true → (t.headStatements p s).1 = []) := by
  obtain ⟨hnodup, hheads⟩ :=
    t.headsFound_collectHeads (t.len + 1) p ([], []) s ⟨List.nodup_nil, by simp⟩
  refine ⟨fun fuel h => t.collectHeads_congr fuel (t.len + 1) p ([], []) s
      (by rw [unseen_nil]; exact h) (by rw [unseen_nil]; omega),
    hnodup, fun h hh => (hheads h hh).2, ?_, ?_, ?_⟩
  · intro st hst hprim
    rw [headStatements_fst, collectHeads_succ]
    simp only [List.contains_nil, Bool.false_eq_true, hst, hprim, if_true]
    rfl
  · intro hp
    have hnone : t.get? p = none := List.getElem?_eq_none hp
    rw [headStatements_fst, collectHeads_succ]
    simp only [List.contains_nil, Bool.false_eq_true, hnone]
    rfl
  · -- null has no feeders
    intro st hst hnull
    have hkind : st.kind = .null := by
      unfold Statement.isNull at hnull
      split at hnull
      · assumption
      · cases hnull
    have hprim : st.isPrimitive = false := by simp [Statement.isPrimitive, hkind]
    rw [headStatements_fst, collectHeads_succ]
    simp only [List.contains_nil, Bool.false_eq_true, if_false, hst, hprim, feeders, hkind,
      List.foldlM_nil]
    rfl

end TestCase

end BranchSensitivity

import BranchSensitivity.Resolution
import BranchSensitivity.Proofs.Draws

/-!
# The descent to a root value statement stops, or has gone round a cycle

From a position in range the descent takes at most `len` hops. A hop leaves a statement for the
position its step gives, when that is another position in range; otherwise the descent stops
there. So the descent from `p < len` gives a position `r < len`, the last of the positions it
visited, and either it stopped at `r` or it used up its `len` hops. In the second case it
visited `len + 1` positions of a test of `len` statements, so one of them twice: the hop bound
cuts short only a descent that has entered a cycle.

    (t.rootValue p s).1 = none ↔ t.len ≤ p
    p < t.len → ∃ r s', (t.rootValue p s).1 = some r ∧ r < t.len ∧
      (t.descentStates t.len p s).getLast? = some (r, s') ∧
      (t.StopsAt r s' ∨ ¬ ((t.descentStates t.len p s).map Prod.fst).Nodup)

In a consistent test without arrays every hop goes to an earlier position, so no position is
visited twice and the descent always stops (`rootValue_stops_of_consistent`).
-/

namespace BranchSensitivity

open BranchSensitivity.Random

namespace TestCase

/-! ## One hop -/

/-- One hop of the descent from `c` with draws `s`: the position it goes to with the draws left,
or `none` when the descent stops at `c`. -/
def hop (t : TestCase) (c : Nat) (s : Rng) : Option (Nat × Rng) :=
  match t.get? c with
  | none => none
  | some st =>
    match (t.descentStep c st s).1 with
    | some next => if next != c && next < t.len then some (next, (t.descentStep c st s).2) else none
    | none => none

/-- The descent stops at `c` with draws `s`: the step from `c` goes nowhere, back to `c`, or out
of range. -/
def StopsAt (t : TestCase) (c : Nat) (s : Rng) : Prop :=
  ∀ st, t.get? c = some st → ∀ next, (t.descentStep c st s).1 = some next → next = c ∨ t.len ≤ next

theorem hop_eq_none_iff (t : TestCase) (c : Nat) (s : Rng) :
    t.hop c s = none ↔ t.StopsAt c s := by
  unfold hop StopsAt
  cases hst : t.get? c with
  | none => simp
  | some st =>
    cases hn : (t.descentStep c st s).1 with
    | none => simp [hn]
    | some next =>
      simp only [hn, Option.some.injEq, forall_eq', bne_iff_ne, ne_eq,
        Bool.and_eq_true, decide_eq_true_eq, ite_eq_right_iff, reduceCtorEq, imp_false]
      omega

/-- A hop goes where the step of the statement at `c` goes, to another position in range. -/
theorem hop_eq_some {t : TestCase} {c : Nat} {s : Rng} {next : Nat} {s' : Rng}
    (h : t.hop c s = some (next, s')) : ∃ st, t.get? c = some st ∧
      (t.descentStep c st s).1 = some next ∧ next ≠ c ∧ next < t.len := by
  unfold hop at h
  split at h
  · cases h
  · rename_i st hst
    split at h
    · rename_i n hn
      split at h
      · rename_i hne
        cases h
        simp only [bne_iff_ne, ne_eq, Bool.and_eq_true, decide_eq_true_eq] at hne
        exact ⟨st, hst, hn, hne⟩
      · cases h
    · cases h

theorem descend_succ_of_hop_none {t : TestCase} {c : Nat} {s : Rng} (fuel : Nat)
    (h : t.hop c s = none) : (t.descend (fuel + 1) c s).1 = c := by
  unfold hop at h
  rw [descend]
  cases hst : t.get? c with
  | none => rfl
  | some st =>
    rw [hst] at h
    dsimp only at h ⊢
    rcases hd : t.descentStep c st s with ⟨o, s'⟩
    rw [hd] at h
    dsimp only [bind, StateT.bind]
    rw [hd]
    cases o with
    | none => rfl
    | some next =>
      dsimp only at h ⊢
      rw [if_neg (by intro hc; rw [if_pos hc] at h; cases h)]
      rfl

theorem descend_succ_of_hop_some {t : TestCase} {c : Nat} {s : Rng} {next : Nat} {s' : Rng}
    (fuel : Nat) (h : t.hop c s = some (next, s')) :
    (t.descend (fuel + 1) c s).1 = (t.descend fuel next s').1 := by
  unfold hop at h
  rw [descend]
  cases hst : t.get? c with
  | none => rw [hst] at h; cases h
  | some st =>
    rw [hst] at h
    dsimp only at h ⊢
    rcases hd : t.descentStep c st s with ⟨o, s₁⟩
    rw [hd] at h
    dsimp only [bind, StateT.bind]
    rw [hd]
    cases o with
    | none => cases h
    | some n =>
      dsimp only at h ⊢
      split at h
      · rename_i hc
        cases h
        rw [if_pos hc]
      · cases h

/-! ## The positions a descent visits -/

/-- The states a descent of at most `fuel` hops passes through from `c` with draws `s`: each
position with the draws its step starts from. -/
def descentStates (t : TestCase) : Nat → Nat → Rng → List (Nat × Rng)
  | 0, c, s => [(c, s)]
  | fuel + 1, c, s =>
    match t.hop c s with
    | some (next, s') => (c, s) :: t.descentStates fuel next s'
    | none => [(c, s)]

/-- The descent ends at the last state it visits, and it stopped there or used up its hops. -/
theorem descentStates_end (t : TestCase) : ∀ (fuel c : Nat) (s : Rng), ∃ s',
    (t.descentStates fuel c s).getLast? = some ((t.descend fuel c s).1, s') ∧
      (t.hop (t.descend fuel c s).1 s' = none ∨ (t.descentStates fuel c s).length = fuel + 1) := by
  intro fuel
  induction fuel with
  | zero => intro c s; exact ⟨s, rfl, .inr rfl⟩
  | succ fuel ih =>
    intro c s
    unfold descentStates
    cases hh : t.hop c s with
    | none =>
      rw [descend_succ_of_hop_none fuel hh]
      exact ⟨s, rfl, .inl hh⟩
    | some h =>
      obtain ⟨next, s₁⟩ := h
      rw [descend_succ_of_hop_some fuel hh]
      obtain ⟨s', hlast, hend⟩ := ih next s₁
      refine ⟨s', ?_, ?_⟩
      · rw [List.getLast?_cons, hlast]
        rfl
      · rcases hend with hstop | hlen
        · exact .inl hstop
        · exact .inr (by rw [List.length_cons, hlen])

/-- From a position in range, a descent visits only positions in range. -/
theorem descentStates_lt (t : TestCase) : ∀ (fuel c : Nat) (s : Rng), c < t.len →
    ∀ x ∈ t.descentStates fuel c s, x.1 < t.len := by
  intro fuel
  induction fuel with
  | zero => intro c s hc x hx; simp_all [descentStates]
  | succ fuel ih =>
    intro c s hc x hx
    unfold descentStates at hx
    cases hh : t.hop c s with
    | none => simp_all
    | some h =>
      obtain ⟨next, s₁⟩ := h
      rw [hh] at hx
      obtain ⟨-, -, -, -, hnext⟩ := hop_eq_some hh
      rcases List.mem_cons.mp hx with rfl | hx
      · exact hc
      · exact ih next s₁ hnext x hx

/-- More than `n` naturals below `n` repeat one of them. -/
theorem not_nodup_of_lt_length {l : List Nat} {n : Nat} (hl : n < l.length)
    (h : ∀ x ∈ l, x < n) : ¬ l.Nodup := by
  intro hnd
  have hsub : l.toFinset ⊆ Finset.range n := fun x hx =>
    Finset.mem_range.mpr (h x (List.mem_toFinset.mp hx))
  have hcard := Finset.card_le_card hsub
  rw [List.toFinset_card_of_nodup hnd, Finset.card_range] at hcard
  omega

/-! ## Consistent tests without arrays -/

/-- In a consistent test a statement refers only to itself and earlier positions. -/
theorem reference_le_of_isConsistent {t : TestCase} (h : t.isConsistent) {c : Nat}
    {st : Statement} (hc : t.get? c = some st) {r : Nat} (hr : r ∈ st.references) : r ≤ c := by
  unfold isConsistent danglingReferences at h
  rw [List.isEmpty_iff, List.flatten_eq_nil_iff] at h
  have hmem : (st, c) ∈ t.statements.zipIdx := List.mem_zipIdx_iff_getElem?.mpr hc
  have hnone := h _ (List.mem_map_of_mem hmem)
  simp only [List.map_eq_nil_iff, List.filter_eq_nil_iff, Bool.or_eq_true, decide_eq_true_eq,
    not_or, not_lt] at hnone
  exact (hnone r hr).1

/-- A step from a call with arguments goes to one of them: the index drawn below their number
picks one. -/
theorem descentStep_call (t : TestCase) (p : Nat) {st : Statement} {c : Call}
    (hc : st.kind = .constructor c ∨ st.kind = .method c) (hne : c.params ≠ []) (s : Rng) :
    ∃ v ∈ c.params, (t.descentStep p st s).1 = some v.position := by
  have hi := index_lt (List.length_pos_iff.2 hne) s
  have hempty : c.params.isEmpty = false := by simpa using hne
  rcases hidx : index c.params.length s with ⟨i, s'⟩
  rw [hidx] at hi
  refine ⟨c.params[i], List.getElem_mem hi, ?_⟩
  unfold descentStep
  rcases hc with hc | hc <;> rw [hc] <;> dsimp only <;> rw [hempty] <;>
    simp only [Bool.false_eq_true, ↓reduceIte, bind, StateT.bind, hidx, lookup_of_lt hi, pure,
      StateT.pure]

/-- A step from anything but an array goes to one of the statement's references: a call to an
argument, an assignment to its value. -/
theorem descentStep_mem_references (t : TestCase) (c : Nat) {st : Statement} (s : Rng)
    (hst : ∀ lengths, st.kind ≠ .array lengths) {next : Nat}
    (h : (t.descentStep c st s).1 = some next) : next ∈ st.references := by
  unfold Statement.references
  cases hk : st.kind with
  | array lengths => exact absurd hk (hst lengths)
  | primitive v => simp [descentStep, hk, pure, StateT.pure] at h
  | null => simp [descentStep, hk, pure, StateT.pure] at h
  | constructor cl | method cl =>
    by_cases hne : cl.params = []
    · simp [descentStep, hk, hne, pure, StateT.pure] at h
    · -- the step goes to one of the arguments
      obtain ⟨v, hv, hstep⟩ := @descentStep_call t c st cl (by simp [hk]) hne s
      rw [h, Option.some.injEq] at hstep
      exact List.mem_map.mpr ⟨v, List.mem_append_right _ hv, hstep.symm⟩
  | assignment a =>
    simp only [descentStep, hk, pure, StateT.pure, Option.some.injEq] at h
    subst h
    dsimp only
    split <;> simp

/-- In a consistent test without arrays every hop goes to an earlier position. -/
theorem hop_lt_of_consistent {t : TestCase} (hcons : t.isConsistent)
    (harr : ∀ st ∈ t.statements, ∀ lengths, st.kind ≠ .array lengths) {c : Nat} {s : Rng}
    {next : Nat} {s' : Rng} (h : t.hop c s = some (next, s')) : next < c := by
  obtain ⟨st, hst, hstep, hne, -⟩ := hop_eq_some h
  have hkind := harr st (List.mem_of_getElem? hst)
  have hle := reference_le_of_isConsistent hcons hst (t.descentStep_mem_references c s hkind hstep)
  omega

/-- A descent whose every hop goes to an earlier position visits no position twice. -/
theorem descentStates_nodup {t : TestCase} (hdown : ∀ c s next s', t.hop c s = some (next, s') → next < c) :
    ∀ (fuel c : Nat) (s : Rng), (∀ x ∈ t.descentStates fuel c s, x.1 ≤ c) ∧
      ((t.descentStates fuel c s).map Prod.fst).Pairwise (· > ·) := by
  intro fuel
  induction fuel with
  | zero => intro c s; simp [descentStates]
  | succ fuel ih =>
    intro c s
    unfold descentStates
    cases hh : t.hop c s with
    | none => simp
    | some h =>
      obtain ⟨next, s₁⟩ := h
      have hlt := hdown c s next s₁ hh
      obtain ⟨hle, hpw⟩ := ih next s₁
      refine ⟨?_, ?_⟩
      · intro x hx
        rcases List.mem_cons.mp hx with rfl | hx
        · exact Nat.le_refl _
        · exact Nat.le_of_lt (Nat.lt_of_le_of_lt (hle x hx) hlt)
      · rw [List.map_cons, List.pairwise_cons]
        refine ⟨?_, hpw⟩
        intro y hy
        obtain ⟨x, hx, rfl⟩ := List.mem_map.mp hy
        exact Nat.lt_of_le_of_lt (hle x hx) hlt

/-! ## The root value statement -/

theorem rootValue_run_of_lt {t : TestCase} {p : Nat} (h : p < t.len) (s : Rng) :
    t.rootValue p s = (some (t.descend t.len p s).1, (t.descend t.len p s).2) := by
  simp only [rootValue, h, if_true]
  rfl

theorem rootValue_run_of_le {t : TestCase} {p : Nat} (h : t.len ≤ p) (s : Rng) :
    t.rootValue p s = (none, s) := by
  simp only [rootValue, if_neg (Nat.not_lt.mpr h)]
  rfl

theorem rootValue_of_lt {t : TestCase} {p : Nat} (h : p < t.len) (s : Rng) :
    (t.rootValue p s).1 = some (t.descend t.len p s).1 := by
  rw [rootValue_run_of_lt h]

theorem rootValue_eq_none_iff (t : TestCase) (p : Nat) (s : Rng) :
    (t.rootValue p s).1 = none ↔ t.len ≤ p := by
  by_cases h : p < t.len
  · rw [rootValue_of_lt h]
    simp only [reduceCtorEq, false_iff, not_le]
    exact h
  · rw [rootValue_run_of_le (Nat.not_lt.mp h)]
    exact iff_of_true rfl (Nat.not_lt.mp h)

/-- From a position in range the descent gives a position `r` in range, the last it visits;
the descent stopped at `r`, or the positions it visited repeat one. -/
theorem rootValue_last_state {t : TestCase} {p : Nat} (hp : p < t.len) (s : Rng) :
    ∃ r s', (t.rootValue p s).1 = some r ∧ r < t.len ∧
      (t.descentStates t.len p s).getLast? = some (r, s') ∧
      (t.StopsAt r s' ∨ ¬ ((t.descentStates t.len p s).map Prod.fst).Nodup) := by
  obtain ⟨s', hlast, hend⟩ := t.descentStates_end t.len p s
  have hrange := t.descentStates_lt t.len p s hp
  have hr : (t.descend t.len p s).1 < t.len := hrange (_, s') (List.mem_of_getLast? hlast)
  refine ⟨_, s', rootValue_of_lt hp s, hr, hlast, ?_⟩
  rcases hend with hstop | hlen
  · exact .inl ((hop_eq_none_iff ..).mp hstop)
  · -- `len` hops visited `len + 1` positions below `len`
    refine .inr (not_nodup_of_lt_length (n := t.len) (by simp [hlen]) ?_)
    intro x hx
    obtain ⟨y, hy, rfl⟩ := List.mem_map.mp hx
    exact hrange y hy

/-- **The descent stops, or has gone round a cycle.** From a position in range the descent
gives a position `r` in range, the last it visits; the descent stopped at `r`, or the positions
it visited repeat one. Out of range it gives nothing. In a consistent test without arrays the
descent always stops: the hop bound never cuts it short. -/
theorem rootValue_stops_or_cycles (t : TestCase) (p : Nat) (s : Rng) :
    ((t.rootValue p s).1 = none ↔ t.len ≤ p) ∧
    (p < t.len → ∃ r s', (t.rootValue p s).1 = some r ∧ r < t.len ∧
      (t.descentStates t.len p s).getLast? = some (r, s') ∧
      (t.StopsAt r s' ∨ ¬ ((t.descentStates t.len p s).map Prod.fst).Nodup)) ∧
    (t.isConsistent → (∀ st ∈ t.statements, ∀ lengths, st.kind ≠ .array lengths) →
      p < t.len → ∃ r s', (t.rootValue p s).1 = some r ∧
        (t.descentStates t.len p s).getLast? = some (r, s') ∧ t.StopsAt r s') := by
  refine ⟨rootValue_eq_none_iff t p s, fun hp => rootValue_last_state hp s, ?_⟩
  intro hcons harr hp
  obtain ⟨r, s', hr, -, hlast, hend⟩ := rootValue_last_state hp s
  have hnodup : ((t.descentStates t.len p s).map Prod.fst).Nodup :=
    ((descentStates_nodup (fun _ _ _ _ h => hop_lt_of_consistent hcons harr h) t.len p s).2).imp
      Nat.ne_of_gt
  exact ⟨r, s', hr, hlast, hend.resolve_right (not_not_intro hnodup)⟩

end TestCase

end BranchSensitivity

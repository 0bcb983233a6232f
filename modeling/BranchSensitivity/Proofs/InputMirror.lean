import BranchSensitivity.Inputs
import BranchSensitivity.Proofs.Draws

/-!
# The inputs of a trial mirror its test case

The inputs of a trial list primitive values by statement position. They *mirror* a test case
when their positions increase strictly and each holds the value, never null, of the primitive
statement at its position (`MethodInputs.Mirrors`). The inputs built for any roots and map mirror
the test case they were built from, and a mutation keeps the mirror: it rewrites one primitive
statement and the variable at its position together, and nothing else.

Repeated mutation of the same inputs and test case is a run (`MutationRun`). Along every run, for
every mutator and every state of the random source:

* the variables mirror the test case, and the constants are those that were built;
* a mutation that happens changes only the primitive value of the statement at its position, and
  its old value is the one stored there;
* a call without a mutation changes nothing, and happens exactly when no variable holds a value
  the mutator can change.
-/

namespace BranchSensitivity

open BranchSensitivity.Random

/-! ## Keyed insertion into an association list sorted by key -/

section Sorted

variable {α : Type}

section Keys

variable {κ : Type} [LinearOrder κ]

theorem mem_insertSorted {k : κ} {v : α} {l : List (κ × α)} (hl : l.Pairwise (·.1 < ·.1))
    {e : κ × α} : e ∈ insertSorted k v l ↔ e = (k, v) ∨ (e ∈ l ∧ e.1 ≠ k) := by
  induction l with
  | nil => simp [insertSorted]
  | cons hd rest ih =>
    obtain ⟨k', v'⟩ := hd
    rw [List.pairwise_cons] at hl
    -- every key of the rest lies above `k'`
    have above : ∀ e ∈ rest, k' < e.1 := hl.1
    unfold insertSorted
    split
    · rename_i hlt
      rw [compare_lt_iff_lt] at hlt
      simp only [List.mem_cons]
      constructor
      · rintro (rfl | rfl | h)
        · exact .inl rfl
        · exact .inr ⟨.inl rfl, ne_of_gt hlt⟩
        · exact .inr ⟨.inr h, ne_of_gt (hlt.trans (above e h))⟩
      · rintro (rfl | ⟨h, -⟩)
        · exact .inl rfl
        · exact .inr h
    · rename_i heq
      rw [compare_eq_iff_eq] at heq
      subst heq
      simp only [List.mem_cons]
      constructor
      · rintro (rfl | h)
        · exact .inl rfl
        · exact .inr ⟨.inr h, ne_of_gt (above e h)⟩
      · rintro (rfl | ⟨rfl | h, hne⟩)
        · exact .inl rfl
        · exact absurd rfl hne
        · exact .inr h
    · rename_i hgt
      rw [compare_gt_iff_gt] at hgt
      simp only [List.mem_cons, ih hl.2]
      constructor
      · rintro (rfl | rfl | ⟨h, hne⟩)
        · exact .inr ⟨.inl rfl, ne_of_lt hgt⟩
        · exact .inl rfl
        · exact .inr ⟨.inr h, hne⟩
      · rintro (rfl | ⟨rfl | h, hne⟩)
        · exact .inr (.inl rfl)
        · exact .inl rfl
        · exact .inr (.inr ⟨h, hne⟩)

theorem insertSorted_pairwise {k : κ} {v : α} {l : List (κ × α)}
    (hl : l.Pairwise (·.1 < ·.1)) : (insertSorted k v l).Pairwise (·.1 < ·.1) := by
  induction l with
  | nil => simp [insertSorted]
  | cons hd rest ih =>
    obtain ⟨k', v'⟩ := hd
    rw [List.pairwise_cons] at hl
    unfold insertSorted
    split
    · rename_i hlt
      rw [compare_lt_iff_lt] at hlt
      refine List.Pairwise.cons (fun e he => ?_) (List.Pairwise.cons hl.1 hl.2)
      rcases List.mem_cons.1 he with rfl | he
      · exact hlt
      · exact hlt.trans (hl.1 e he)
    · rename_i heq
      rw [compare_eq_iff_eq] at heq
      subst heq
      exact List.Pairwise.cons hl.1 hl.2
    · rename_i hgt
      rw [compare_gt_iff_gt] at hgt
      refine List.Pairwise.cons (fun e he => ?_) (ih hl.2)
      rcases (mem_insertSorted hl.2).1 he with rfl | ⟨he, -⟩
      · exact hgt
      · exact hl.1 e he

end Keys

/-- In a list sorted by key, the entry found under a key is the one the list holds. -/
theorem lookup_eq_some_iff_mem {l : List (Nat × α)} (hl : l.Pairwise (·.1 < ·.1)) {p : Nat}
    {v : α} : l.lookup p = some v ↔ (p, v) ∈ l := by
  induction l with
  | nil => simp
  | cons hd rest ih =>
    obtain ⟨k', v'⟩ := hd
    rw [List.pairwise_cons] at hl
    rw [List.lookup_cons, List.mem_cons]
    by_cases hp : p = k'
    · subst hp
      -- the key is not repeated further down
      have hrest : (p, v) ∉ rest := fun h => by have := hl.1 _ h; simp at this
      simp [hrest, eq_comm]
    · have hpb : (p == k') = false := by simpa using hp
      simp [hpb, hp, ih hl.2]

theorem lookup_insertSorted {k : Nat} {v : α} {l : List (Nat × α)} (hl : l.Pairwise (·.1 < ·.1))
    (p : Nat) : (insertSorted k v l).lookup p = if p = k then some v else l.lookup p := by
  apply Option.ext
  intro w
  rw [lookup_eq_some_iff_mem (insertSorted_pairwise hl), mem_insertSorted hl]
  split
  · rename_i hp
    subst hp
    simp [eq_comm]
  · rename_i hp
    rw [lookup_eq_some_iff_mem hl]
    simp [hp]

/-- Overwriting the value under a key that is present keeps the keys. -/
theorem keys_insertSorted_of_mem {k : Nat} {v : α} {l : List (Nat × α)}
    (hl : l.Pairwise (·.1 < ·.1)) (hk : k ∈ l.map (·.1)) :
    (insertSorted k v l).map (·.1) = l.map (·.1) := by
  induction l with
  | nil => simp at hk
  | cons hd rest ih =>
    obtain ⟨k', v'⟩ := hd
    rw [List.pairwise_cons] at hl
    simp only [List.map_cons, List.mem_cons, List.mem_map] at hk
    unfold insertSorted
    split
    · -- a present key is never below the first one
      rename_i hlt
      rw [Nat.compare_eq_lt] at hlt
      exfalso
      rcases hk with rfl | ⟨e, he, rfl⟩
      · exact Nat.lt_irrefl _ hlt
      · have := hl.1 e he
        omega
    · rename_i heq
      rw [Nat.compare_eq_eq] at heq
      simp [heq]
    · rename_i hgt
      rw [Nat.compare_eq_gt] at hgt
      have hk' : k ∈ rest.map (·.1) := by
        rcases hk with rfl | ⟨e, he, rfl⟩
        · exact absurd hgt (Nat.lt_irrefl _)
        · exact List.mem_map_of_mem he
      simp [ih hl.2 hk']

end Sorted

/-! ## Primitive statements -/

theorem Statement.primitiveValue?_eq_some {st : Statement} {v : Value} :
    st.primitiveValue? = some v ↔ st.kind = .primitive v := by
  unfold Statement.primitiveValue?
  split <;> simp_all

theorem TestCase.setPrimitive_of_get? {t : TestCase} {p : Nat}
    {st : Statement} {old : Value} (hp : t.get? p = some st) (hk : st.kind = .primitive old)
    (v : Value) :
    t.setPrimitive p v = (some old, ⟨t.statements.set p { st with kind := .primitive v }⟩) := by
  unfold TestCase.setPrimitive
  rw [hp]
  simp [hk]

/-! ## Building the inputs -/

namespace MethodInputs

section Build

variable {t : TestCase} {m : CodeMap}

/-- A property of inputs that recording one primitive keeps, and recording one constant keeps,
holds of the inputs built from any roots: building does nothing else. -/
theorem build_induct (P : MethodInputs → Prop) (hempty : P {})
    (hprim : ∀ ins p, P ins → P (ins.addPrimitive t p))
    (hconst : ∀ ins k v, P ins → P { ins with constants := insertSorted k v ins.constants })
    (roots : List RootVariable) : P (build roots t m) := by
  -- a reference records a primitive, or each primitive element of an array
  have href : ∀ ins ref, P ins → P (MethodInputs.addReference t ins ref) := by
    intro ins ref h
    unfold MethodInputs.addReference
    split
    · exact hprim _ _ h
    · exact List.foldlRecOn (motive := P) _ _ h fun acc hacc _ _ => hprim acc _ hacc
    · exact h
  have hroot : ∀ ins root, P ins → P (MethodInputs.addRoot t m ins root) := by
    intro ins root h
    unfold MethodInputs.addRoot
    split
    · split
      · exact hconst _ _ _ h
      · exact h
    · refine List.foldlRecOn (motive := P) _ _ h fun acc hacc node _ => ?_
      split
      · exact List.foldlRecOn (motive := P) _ _ hacc fun acc' hacc' ref _ => href acc' ref hacc'
      · exact hacc
  exact List.foldlRecOn (motive := P) _ _ hempty fun ins h root _ => hroot ins root h

/-- Building records no mutation. -/
theorem build_mutation (roots : List RootVariable) : (build roots t m).mutation = none := by
  refine build_induct (fun ins => ins.mutation = none) rfl (fun ins p h => ?_) (fun _ _ _ h => h)
    roots
  unfold MethodInputs.addPrimitive
  split
  · split
    · exact h
    · exact h
  · exact h

end Build

/-! ## The mirror invariant -/

/-- The inputs mirror a test case: the positions of the variables increase strictly, and each
variable holds the value, never null, of the primitive statement at its position. -/
structure Mirrors (ins : MethodInputs) (t : TestCase) : Prop where
  sorted : ins.primitives.Pairwise (·.1 < ·.1)
  stored : ∀ p v, (p, v) ∈ ins.primitives → (t.get? p).bind Statement.primitiveValue? = some v
  not_null : ∀ p v, (p, v) ∈ ins.primitives → v.isNull = false

theorem Mirrors.addPrimitive {ins : MethodInputs} {t : TestCase} (h : ins.Mirrors t) (p : Nat) :
    (ins.addPrimitive t p).Mirrors t := by
  unfold MethodInputs.addPrimitive
  split
  · rename_i v hv
    split
    · exact h
    · rename_i hnull
      refine ⟨insertSorted_pairwise h.sorted, fun q w hq => ?_, fun q w hq => ?_⟩
      all_goals rcases (mem_insertSorted h.sorted).1 hq with heq | ⟨hq, -⟩
      · cases heq
        exact hv
      · exact h.stored q w hq
      · cases heq
        simpa using hnull
      · exact h.not_null q w hq
  · exact h

/-- The inputs built from a test case mirror it. -/
theorem build_mirrors (roots : List RootVariable) (t : TestCase) (m : CodeMap) :
    (build roots t m).Mirrors t :=
  build_induct (fun ins => ins.Mirrors t) ⟨List.Pairwise.nil, by simp, by simp⟩
    (fun _ p h => h.addPrimitive p) (fun _ _ _ h => ⟨h.sorted, h.stored, h.not_null⟩) roots

/-! ## One mutation -/

/-- What one call of `mutate` does to inputs that mirror the test case. Either no variable holds
a value the mutator can change, and nothing changes; or the variable `(p, before)` is picked,
`before` is mutated into `after` of the same kind, and the primitive statement `st` at `p`, which
holds `before`, and the variable are both rewritten to `after`. -/
inductive MutateSpec (ins : MethodInputs) (t : TestCase) :
    Option Mutation × MethodInputs × TestCase → Prop
  | unchanged (hnone : ∀ e ∈ ins.primitives, Mutator.canMutate e.2 = false) :
      MutateSpec ins t (none, ins, t)
  | mutated (mu : Mutation) (st : Statement) (hmem : (mu.position, mu.before) ∈ ins.primitives)
      (hcan : Mutator.canMutate mu.before = true) (hkind : mu.after.kindName = mu.before.kindName)
      (hst : t.get? mu.position = some st) (hprim : st.kind = .primitive mu.before) :
      MutateSpec ins t (some mu,
        { ins with primitives := insertSorted mu.position mu.after ins.primitives,
                   mutation := some mu },
        ⟨t.statements.set mu.position { st with kind := .primitive mu.after }⟩)

/-- **One mutation step.** On inputs that mirror the test case, `mutate` does what
`MutateSpec` says, for every mutator and every state of the random source. -/
theorem Mirrors.mutate_spec {ins : MethodInputs} {t : TestCase} (h : ins.Mirrors t) (m : Mutator)
    (s : Rng) : MutateSpec ins t (ins.mutate t m s).1 := by
  simp only [MethodInputs.mutate, bind, pure]
  split
  · -- no candidate: every variable holds a null or an object
    rename_i hempty
    refine MutateSpec.unchanged fun e he => ?_
    simp only [List.isEmpty_iff, List.map_eq_nil_iff, List.filter_eq_nil_iff] at hempty
    simpa using hempty e he
  · rename_i hsome
    simp only [StateT.bind]
    generalize hc : List.map (fun x => x.fst) (List.filter (fun x => Mutator.canMutate x.snd)
      ins.primitives) = cands at hsome ⊢
    have hi := index_lt (n := cands.length) (by simpa [List.isEmpty_iff, ← List.length_pos_iff] using hsome) s
    rcases hidx : index cands.length s with ⟨i, s1⟩
    rw [hidx] at hi
    dsimp only [bind] at hi ⊢
    rw [lookup_of_lt hi]
    dsimp only [pure, StateT.pure]
    -- the drawn position is held by a variable whose value the mutator can change
    obtain ⟨e, he, hpos⟩ : ∃ e ∈ ins.primitives.filter (fun x => Mutator.canMutate x.2),
        e.1 = cands[i] := by
      rw [← List.mem_map, hc]
      exact List.getElem_mem hi
    obtain ⟨hmem, hcan⟩ := List.mem_filter.1 he
    obtain ⟨p, before⟩ := e
    dsimp only at hpos hcan
    rw [← hpos]
    rw [(lookup_eq_some_iff_mem h.sorted).2 hmem]
    -- the statement at the position is the primitive the variable mirrors
    obtain ⟨st, hst, hprim⟩ : ∃ st, t.get? p = some st ∧ st.kind = .primitive before := by
      have := h.stored p before hmem
      cases hget : t.get? p with
      | none => simp [hget] at this
      | some st => exact ⟨st, rfl, Statement.primitiveValue?_eq_some.1 (by simpa [hget] using this)⟩
    -- and the mutator gives a value for it
    have hsomeAfter := Mutator.mutate_isSome m before s1
    rw [hcan, Option.isSome_iff_exists] at hsomeAfter
    obtain ⟨after, hafter⟩ := hsomeAfter
    have hkind := Mutator.mutate_kindName m s1 hafter
    dsimp only [StateT.bind]
    rcases hmv : m.mutate before s1 with ⟨res, s2⟩
    rw [hmv] at hafter
    dsimp only [bind] at hafter ⊢
    split
    · cases hafter
    · cases hafter
      rw [TestCase.setPrimitive_of_get? hst hprim]
      exact MutateSpec.mutated ⟨p, before, after⟩ st hmem hcan hkind hst hprim

/-- A mutation keeps the mirror: the statement and the variable it rewrites hold the same new
value, which is of the old value's kind and so not null either. -/
theorem MutateSpec.mirrors {ins : MethodInputs} {t : TestCase}
    {r : Option Mutation × MethodInputs × TestCase} (hspec : MutateSpec ins t r)
    (h : ins.Mirrors t) : r.2.1.Mirrors r.2.2 := by
  cases hspec with
  | unchanged => exact h
  | mutated mu st hmem hcan hkind hst hprim =>
    have hlt : mu.position < t.statements.length := by
      simpa [TestCase.get?] using (List.getElem?_eq_some_iff.1 hst).1
    refine ⟨insertSorted_pairwise h.sorted, fun q w hq => ?_, fun q w hq => ?_⟩
    · rcases (mem_insertSorted h.sorted).1 hq with heq | ⟨hq', hne⟩
      · cases heq
        simp [TestCase.get?, hlt, Statement.primitiveValue?]
      · have hne' : mu.position ≠ q := fun e => hne e.symm
        simpa [TestCase.get?, List.getElem?_set, hne'] using h.stored q w hq'
    · rcases (mem_insertSorted h.sorted).1 hq with heq | ⟨hq', -⟩
      · cases heq
        rw [Value.isNull_eq_kindName, hkind, ← Value.isNull_eq_kindName]
        cases hb : mu.before <;> simp_all [Mutator.canMutate, Value.isNull]
      · exact h.not_null q w hq'

/-- A mutation leaves the constants alone. -/
theorem MutateSpec.constants {ins : MethodInputs} {t : TestCase}
    {r : Option Mutation × MethodInputs × TestCase} (hspec : MutateSpec ins t r) :
    r.2.1.constants = ins.constants := by
  cases hspec <;> rfl

end MethodInputs

/-! ## Runs of mutations -/

/-- The inputs and test case that repeated mutation reaches from the inputs built for a test case;
each call may use any mutator and any state of the random source. -/
inductive MutationRun (roots : List RootVariable) (t₀ : TestCase) (m : CodeMap) :
    MethodInputs → TestCase → Prop
  | build : MutationRun roots t₀ m (MethodInputs.build roots t₀ m) t₀
  | step {ins : MethodInputs} {t : TestCase} (mu : Mutator) (s : Rng) :
      MutationRun roots t₀ m ins t →
      MutationRun roots t₀ m (ins.mutate t mu s).1.2.1 (ins.mutate t mu s).1.2.2

namespace MutationRun

variable {roots : List RootVariable} {t₀ : TestCase} {m : CodeMap}

/-- Along a run the inputs mirror the test case and keep the constants that were built. -/
theorem mirrors {ins : MethodInputs} {t : TestCase} (hrun : MutationRun roots t₀ m ins t) :
    ins.Mirrors t ∧ ins.constants = (MethodInputs.build roots t₀ m).constants := by
  induction hrun with
  | build => exact ⟨MethodInputs.build_mirrors roots t₀ m, rfl⟩
  | step mu s _ ih =>
    have hspec := ih.1.mutate_spec mu s
    exact ⟨hspec.mirrors ih.1, hspec.constants.trans ih.2⟩

end MutationRun

/-- What one call of `mutate` on the inputs `ins` and the test case `t` of a run did, given its
result `r`: the mutation, the new inputs and the new test case; `built` are the inputs the run
started from. -/
structure CallFrame (built ins : MethodInputs) (t : TestCase)
    (r : Option Mutation × MethodInputs × TestCase) : Prop where
  /-- Each variable holds the value, never null, of the primitive statement at its position. -/
  mirror : ∀ p v, (p, v) ∈ r.2.1.primitives →
    (r.2.2.get? p).bind Statement.primitiveValue? = some v ∧ v.isNull = false
  /-- The constants are the ones built. -/
  constants : r.2.1.constants = built.constants
  /-- A mutation rewrites the primitive value of the statement at its position, from its old
  value `before`, and nothing else of the test case; the variable there becomes `after`. -/
  mutated : ∀ x, r.1 = some x →
    r.2.2.len = t.len ∧ (∀ q, q ≠ x.position → r.2.2.get? q = t.get? q) ∧
    (∃ st, t.get? x.position = some st ∧ st.kind = .primitive x.before ∧
      r.2.2.get? x.position = some { st with kind := .primitive x.after }) ∧
    ins.primitives.lookup x.position = some x.before ∧
    r.2.1.primitives.lookup x.position = some x.after
  /-- A call without a mutation changes nothing. -/
  unchanged : r.1 = none → r.2.1 = ins ∧ r.2.2 = t
  /-- A call goes without a mutation exactly when no variable holds a value the mutator can
  change. -/
  none_iff : r.1 = none ↔ ∀ e ∈ ins.primitives, Mutator.canMutate e.2 = false

/-- **Repeated mutation.** From any inputs and test case reached by mutating the inputs built
for a test case, one more call, with any mutator and any state of the random source, does what
`CallFrame` says. -/
theorem MutationRun.mutate_frame {roots : List RootVariable} {t₀ : TestCase} {m : CodeMap}
    {ins : MethodInputs} {t : TestCase} (hrun : MutationRun roots t₀ m ins t) (mu : Mutator)
    (s : Rng) : CallFrame (MethodInputs.build roots t₀ m) ins t (ins.mutate t mu s).1 := by
  obtain ⟨hmirror, hconst⟩ := hrun.mirrors
  have hspec := hmirror.mutate_spec mu s
  have hafter := hspec.mirrors hmirror
  have hconst' := hspec.constants.trans hconst
  generalize (ins.mutate t mu s).1 = r at hspec hafter hconst'
  refine ⟨fun p v hp => ⟨hafter.stored p v hp, hafter.not_null p v hp⟩, hconst', ?_, ?_, ?_⟩
  · intro x hx
    cases hspec with
    | unchanged => cases hx
    | mutated mu' st hmem hcan hkind hst hprim =>
      cases hx
      have hlt : x.position < t.statements.length := by
        simpa [TestCase.get?] using (List.getElem?_eq_some_iff.1 hst).1
      refine ⟨by simp [TestCase.len], fun q hq => ?_, ⟨st, hst, hprim, ?_⟩,
        (lookup_eq_some_iff_mem hmirror.sorted).2 hmem, ?_⟩
      · have hq' : x.position ≠ q := fun e => hq e.symm
        simp [TestCase.get?, hq']
      · simp [TestCase.get?, hlt]
      · simp [lookup_insertSorted hmirror.sorted]
  · intro hx
    cases hspec with
    | unchanged => exact ⟨rfl, rfl⟩
    | mutated => cases hx
  · cases hspec with
    | unchanged hnone => exact ⟨fun _ => hnone, fun _ => rfl⟩
    | mutated mu' st hmem hcan =>
      refine ⟨(fun h => nomatch h), fun hnone => ?_⟩
      -- the mutated variable held a value the mutator can change
      have := hnone _ hmem
      simp [hcan] at this

/-- The frame holds for a second call after one delta mutation of `int0 = 5`, the argument the
map binds to the first parameter. -/
theorem mutate_frame_second_call :
    let root := RootVariable.mk (.parameter 1) ⟨"Calc", "f(I)I", 0, .iload, none⟩ []
    let t₀ := (({} : TestCase).addPrimitive (.int 5)).2
    let m := CodeMap.insert {} root ⟨0, .int⟩
    let mu := Mutator.new .delta 20 2048
    let step := ((MethodInputs.build [root] t₀ m).mutate t₀ mu (Rng.ofSeed 42)).1
    MutationRun [root] t₀ m step.2.1 step.2.2 ∧
      CallFrame (MethodInputs.build [root] t₀ m) step.2.1 step.2.2
        (step.2.1.mutate step.2.2 mu (Rng.ofSeed 7)).1 := by
  intro root t₀ m mu
  -- inline the named first call, so that its result is matched as written and not computed
  dsimp only
  have hrun := MutationRun.step mu (Rng.ofSeed 42) (MutationRun.build : MutationRun [root] t₀ m _ _)
  exact ⟨hrun, hrun.mutate_frame mu (Rng.ofSeed 7)⟩

end BranchSensitivity

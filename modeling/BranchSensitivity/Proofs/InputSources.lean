import BranchSensitivity.Proofs.InputMirror

/-!
# Where the inputs of a trial come from

The inputs built for some roots are characterised without the loops that build them:

    (q, v) ∈ (build roots t m).primitives ↔
      v ≠ null ∧ the statement at q is the primitive v ∧ Feeds roots t m q
    (k, c) ∈ (build roots t m).constants ↔ lastConstant? roots k = some c

A position is *fed* when some node of a non-constant root (in the tree of the root, each key
once) is mapped to a reference that points at it, or at an array statement into which an element
stored at it is assigned. The constant of an instruction identity is the literal pushed by the
last constant root of that identity that pushes one: a later root overwrites an earlier one.

So the variables depend only on which roots there are, not on their order or repetition, and so
do the constants when the constant roots of one identity push one literal.

The proof carries one invariant through the four nested loops (roots, nodes, references, array
elements): the variables are sorted and hold exactly the non-null primitive values of the
positions fed so far. Every position is written with the value the test case stores there, so a
position reached twice is written the same way twice.
-/

namespace BranchSensitivity

/-- A fold carries an invariant indexed by the items already folded. -/
theorem foldl_prefix_run {α β : Type} (f : β → α → β) (I : List α → β → Prop) {b : β}
    (h0 : I [] b) (hstep : ∀ pre x acc, I pre acc → I (pre ++ [x]) (f acc x)) (l : List α) :
    I l (l.foldl f b) := by
  induction l using List.reverseRecOn with
  | nil => exact h0
  | append_singleton l x ih =>
    rw [List.foldl_append, List.foldl_cons, List.foldl_nil]
    exact hstep l x _ ih

/-- Two lists sorted strictly by key that hold the same entries are equal. -/
theorem eq_of_keys_sorted {κ α : Type} [LinearOrder κ] {l l' : List (κ × α)}
    (h : l.Pairwise (·.1 < ·.1)) (h' : l'.Pairwise (·.1 < ·.1)) (hmem : ∀ e, e ∈ l ↔ e ∈ l') :
    l = l' := by
  have : Std.Irrefl (fun a b : κ × α => a.1 < b.1) := ⟨fun a => lt_irrefl a.1⟩
  have : Std.Antisymm (fun a b : κ × α => a.1 < b.1) :=
    ⟨fun _ _ h₁ h₂ => absurd (h₁.trans h₂) (lt_irrefl _)⟩
  exact h.eq_of_mem_iff h' hmem

/-! ## What brings a position into the inputs -/

/-- The statement at a position creates an array. -/
def TestCase.IsArrayAt (t : TestCase) (p : Nat) : Prop :=
  ∃ st ls, t.get? p = some st ∧ st.kind = .array ls

/-- A reference brings a position: it points at it, or at an array statement into which an
element stored at the position is assigned. -/
def VarRef.Brings (t : TestCase) (r : VarRef) (q : Nat) : Prop :=
  r.position = q ∨ (t.IsArrayAt r.position ∧ ∃ i, (i, q) ∈ t.arrayElements r.position)

namespace MethodInputs

/-- A root feeds a position: it is not a constant, and some node of its tree (each key once) is
mapped to a reference that brings the position. -/
def RootFeeds (t : TestCase) (m : CodeMap) (R : RootVariable) (q : Nat) : Prop :=
  R.isConstant = false ∧ ∃ N ∈ R.allChildren, ∃ refs, m.get? N = some refs ∧ ∃ r ∈ refs, r.Brings t q

/-- Some root of the list feeds the position. -/
def Feeds (roots : List RootVariable) (t : TestCase) (m : CodeMap) (q : Nat) : Prop :=
  ∃ R ∈ roots, RootFeeds t m R q

/-- The literal pushed for an instruction identity by the last constant root of that identity
that pushes one. -/
def lastConstant? (roots : List RootVariable) (k : String) : Option Value :=
  (roots.filterMap fun R =>
    if R.isConstant = true ∧ R.instruction.id = k then R.instruction.constantValue? else none).getLast?

/-- The constant roots of one instruction identity push one literal. -/
def ConstantsAgree (roots : List RootVariable) : Prop :=
  ∀ R₁ ∈ roots, ∀ R₂ ∈ roots, R₁.isConstant = true → R₂.isConstant = true →
    R₁.instruction.id = R₂.instruction.id → ∀ c₁ c₂, R₁.instruction.constantValue? = some c₁ →
      R₂.instruction.constantValue? = some c₂ → c₁ = c₂

/-! ## The variables -/

section Variables

variable {t : TestCase} {m : CodeMap}

/-- The variables are sorted by position and hold exactly the non-null primitive values stored at
the positions `P` admits. -/
structure Collects (t : TestCase) (P : Nat → Prop) (ins : MethodInputs) : Prop where
  sorted : ins.primitives.Pairwise (·.1 < ·.1)
  mem_iff : ∀ q v, (q, v) ∈ ins.primitives ↔
    v ≠ .null ∧ (t.get? q).bind Statement.primitiveValue? = some v ∧ P q

/-- Only what `P` says of positions holding a primitive matters. -/
theorem Collects.congr {P P' : Nat → Prop} {ins : MethodInputs} (h : Collects t P ins)
    (hP : ∀ q v, v ≠ .null → (t.get? q).bind Statement.primitiveValue? = some v → (P q ↔ P' q)) :
    Collects t P' ins := by
  refine ⟨h.sorted, fun q v => ?_⟩
  rw [h.mem_iff]
  constructor
  · rintro ⟨hv, hq, hp⟩
    exact ⟨hv, hq, (hP q v hv hq).1 hp⟩
  · rintro ⟨hv, hq, hp⟩
    exact ⟨hv, hq, (hP q v hv hq).2 hp⟩

theorem isNull_eq_false_iff {v : Value} : v.isNull = false ↔ v ≠ .null := by
  cases v <;> simp [Value.isNull]

/-- Recording the primitive at `p` adds `p` to the positions, with the value stored there; a
position recorded before is written with the same value again. -/
theorem Collects.addPrimitive {P : Nat → Prop} {ins : MethodInputs} (h : Collects t P ins)
    (p : Nat) : Collects t (fun q => P q ∨ q = p) (ins.addPrimitive t p) := by
  unfold MethodInputs.addPrimitive
  split
  · rename_i v hv
    split
    · -- a null is not recorded, and no null is a variable
      rename_i hnull
      refine h.congr fun q w hw hq => ⟨.inl, fun hq' => hq'.elim id fun e => ?_⟩
      subst e
      rw [hv] at hq
      cases hq
      exact absurd hnull (by simpa [isNull_eq_false_iff] using hw)
    · rename_i hnull
      refine ⟨insertSorted_pairwise h.sorted, fun q w => ?_⟩
      rw [mem_insertSorted h.sorted, h.mem_iff]
      by_cases hqp : q = p
      · subst hqp
        rw [hv]
        simp only [Prod.mk.injEq, true_and, ne_eq, not_true_eq_false, and_false, or_false,
          Option.some.injEq, or_true, and_true]
        constructor
        · rintro rfl
          exact ⟨isNull_eq_false_iff.1 (by simpa using hnull), rfl⟩
        · rintro ⟨-, rfl⟩
          rfl
      · simp [hqp]
  · -- no primitive at `p`: the positions it adds hold none
    rename_i hnone
    refine h.congr fun q w _ hq => ⟨.inl, fun hq' => hq'.elim id fun e => ?_⟩
    subst e
    exact absurd hq (by simp [hnone])

/-- Recording what a reference brings adds the positions it brings. -/
theorem Collects.addReference {P : Nat → Prop} {ins : MethodInputs} (h : Collects t P ins)
    (r : VarRef) : Collects t (fun q => P q ∨ r.Brings t q) (MethodInputs.addReference t ins r) := by
  unfold MethodInputs.addReference
  split
  · -- a primitive brings its own position only
    rename_i st v hst
    refine (h.addPrimitive r.position).congr fun q w _ _ => ?_
    have hnot : ¬ t.IsArrayAt r.position := by
      rintro ⟨st', ls, hst', hk⟩
      rw [hst] at hst'
      cases hst'
      cases hk
    simp only [VarRef.Brings, hnot, false_and, or_false, eq_comm]
  · -- an array brings the positions assigned into it
    rename_i st ls hst
    have harr : t.IsArrayAt r.position := ⟨_, ls, hst, rfl⟩
    have hfold := foldl_prefix_run (fun acc (e : Nat × Nat) => acc.addPrimitive t e.2)
      (fun pre acc => Collects t (fun q => P q ∨ ∃ i, (i, q) ∈ pre) acc)
      (h.congr fun q _ _ _ => by simp) (fun pre e acc hacc => (hacc.addPrimitive e.2).congr
        fun q _ _ _ => by
          obtain ⟨i, q'⟩ := e
          simp [exists_or, or_assoc, eq_comm]) (t.arrayElements r.position)
    refine hfold.congr fun q w _ hq => ?_
    simp only [VarRef.Brings, harr, true_and]
    constructor
    · rintro (hp | hi)
      · exact .inl hp
      · exact .inr (.inr hi)
    · rintro (hp | rfl | hi)
      · exact .inl hp
      · -- the array's own position holds no primitive
        obtain ⟨st', ls', hst', hk⟩ := harr
        rw [hst'] at hq
        simp [Statement.primitiveValue?, hk] at hq
      · exact .inr hi
  · -- any other statement brings nothing that holds a primitive
    rename_i hprim harray
    refine h.congr fun q w _ hq => ⟨.inl, ?_⟩
    rintro (hp | rfl | ⟨⟨⟨name, ty, kind⟩, ls, hst, hk⟩, -⟩)
    · exact hp
    · obtain ⟨⟨name, ty, kind⟩, hst, hk⟩ : ∃ st, t.get? r.position = some st ∧
          st.kind = .primitive w := by
        cases hget : t.get? r.position with
        | none => simp [hget] at hq
        | some st => exact ⟨st, rfl, Statement.primitiveValue?_eq_some.1 (by simpa [hget] using hq)⟩
      cases hk
      exact (hprim name ty w hst).elim
    · cases hk
      exact (harray name ty ls hst).elim

/-- Recording what a root brings adds the positions the root feeds. -/
theorem Collects.addRoot {P : Nat → Prop} {ins : MethodInputs} (h : Collects t P ins)
    (R : RootVariable) :
    Collects t (fun q => P q ∨ RootFeeds t m R q) (MethodInputs.addRoot t m ins R) := by
  unfold MethodInputs.addRoot
  split
  · -- a constant root adds no variable
    rename_i hconst
    have hnot : ∀ q, ¬ RootFeeds t m R q := fun q hq => by
      rw [RootFeeds, hconst] at hq
      exact Bool.noConfusion hq.1
    split
    · exact ⟨h.sorted, fun q v => by rw [h.mem_iff]; simp [hnot]⟩
    · exact h.congr fun q _ _ _ => by simp [hnot]
  · -- each node of the tree brings what its references bring
    rename_i hconst
    have hc : R.isConstant = false := by simpa using hconst
    -- the step of the fold is the model's own, read off the goal
    refine (foldl_prefix_run _
      (fun pre acc => Collects t (fun q => P q ∨
        ∃ N ∈ pre, ∃ refs, m.get? N = some refs ∧ ∃ r ∈ refs, r.Brings t q) acc)
      (h.congr fun q _ _ _ => by simp)
      (fun pre N acc hacc => by
        split
        · rename_i refs hrefs
          have hrs := foldl_prefix_run (MethodInputs.addReference t)
            (fun rpre acc' => Collects t (fun q => (P q ∨
              ∃ N ∈ pre, ∃ refs, m.get? N = some refs ∧ ∃ r ∈ refs, r.Brings t q) ∨
              ∃ r ∈ rpre, r.Brings t q) acc')
            (hacc.congr fun q _ _ _ => by simp)
            (fun rpre r acc' h' => (h'.addReference r).congr fun q _ _ _ => by
              simp [or_assoc, or_and_right, exists_or])
            refs
          refine hrs.congr fun q _ _ _ => ?_
          simp only [List.mem_append, List.mem_singleton, or_and_right, exists_or, exists_eq_left,
            hrefs, Option.some.injEq, or_assoc, exists_eq_left']
        · rename_i hrefs
          refine hacc.congr fun q _ _ _ => ?_
          simp [or_and_right, exists_or, hrefs])
      R.allChildren).congr fun q _ _ _ => ?_
    simp [RootFeeds, hc]

/-- The variables built hold exactly the non-null primitive values of the positions the roots
feed, sorted by position. -/
theorem build_collects (roots : List RootVariable) (t : TestCase) (m : CodeMap) :
    Collects t (Feeds roots t m) (build roots t m) :=
  foldl_prefix_run (MethodInputs.addRoot t m) (fun pre ins => Collects t (Feeds pre t m) ins)
    ⟨.nil, by simp [Feeds]⟩ (fun pre R ins h => (h.addRoot R).congr fun q _ _ _ => by
      simp [Feeds, or_and_right, exists_or]) roots

end Variables

/-! ## The constants -/

section Constants

variable {t : TestCase} {m : CodeMap}

@[simp] theorem constants_addPrimitive (ins : MethodInputs) (p : Nat) :
    (ins.addPrimitive t p).constants = ins.constants := by
  unfold MethodInputs.addPrimitive
  split
  · split <;> rfl
  · rfl

@[simp] theorem constants_addReference (ins : MethodInputs) (r : VarRef) :
    (MethodInputs.addReference t ins r).constants = ins.constants := by
  unfold MethodInputs.addReference
  split
  · exact constants_addPrimitive ins r.position
  · exact foldl_prefix_run _ (fun _ (acc : MethodInputs) => acc.constants = ins.constants) rfl
      (fun _ _ acc h => by simp [h]) _
  · rfl

/-- A root that is not a constant leaves the constants alone. -/
theorem constants_addRoot_of_not_constant (ins : MethodInputs) {R : RootVariable}
    (hR : R.isConstant = false) : (MethodInputs.addRoot t m ins R).constants = ins.constants := by
  unfold MethodInputs.addRoot
  rw [if_neg (by simp [hR])]
  refine foldl_prefix_run _ (fun _ (acc : MethodInputs) => acc.constants = ins.constants) rfl
    (fun _ N acc h => ?_) _
  split
  · exact foldl_prefix_run _ (fun _ (acc' : MethodInputs) => acc'.constants = ins.constants) h
      (fun _ _ acc' h' => by simp [h']) _
  · exact h

/-- One more root: the last constant of an identity is that root's literal, when it is a
constant root of that identity pushing one, else the last constant before it. -/
theorem lastConstant?_append_singleton (roots : List RootVariable) (R : RootVariable)
    (k : String) :
    lastConstant? (roots ++ [R]) k =
      (if R.isConstant = true ∧ R.instruction.id = k then R.instruction.constantValue?
        else none).or (lastConstant? roots k) := by
  unfold lastConstant?
  rw [List.filterMap_append, List.getLast?_append]
  cases h : (if R.isConstant = true ∧ R.instruction.id = k then R.instruction.constantValue?
    else none) <;> simp [h]

/-- The constants are sorted by identity and hold, for each identity, the literal of the last
constant root of that identity that pushes one. -/
structure KeepsLast (roots : List RootVariable) (ins : MethodInputs) : Prop where
  sorted : ins.constants.Pairwise (·.1 < ·.1)
  mem_iff : ∀ k c, (k, c) ∈ ins.constants ↔ lastConstant? roots k = some c

/-- A constant root with a literal overwrites the constant of its identity; any other root
leaves the constants alone. -/
theorem KeepsLast.addRoot {pre : List RootVariable} {ins : MethodInputs} (h : KeepsLast pre ins)
    (R : RootVariable) : KeepsLast (pre ++ [R]) (MethodInputs.addRoot t m ins R) := by
  by_cases hconst : R.isConstant = true
  · unfold MethodInputs.addRoot
    rw [if_pos hconst]
    split
    · rename_i c hc
      refine ⟨insertSorted_pairwise h.sorted, fun k c' => ?_⟩
      rw [mem_insertSorted h.sorted, h.mem_iff, lastConstant?_append_singleton]
      by_cases hk : R.instruction.id = k
      · subst hk
        simp [hconst, hc, eq_comm]
      · have hk' : k ≠ R.instruction.id := fun e => hk e.symm
        simp [hk, hk']
    · rename_i hc
      refine ⟨h.sorted, fun k c' => ?_⟩
      rw [h.mem_iff, lastConstant?_append_singleton]
      simp [hc]
  · have hR : R.isConstant = false := by simpa using hconst
    have hkeep := constants_addRoot_of_not_constant (t := t) (m := m) ins hR
    refine ⟨hkeep ▸ h.sorted, fun k c' => ?_⟩
    rw [hkeep, h.mem_iff, lastConstant?_append_singleton]
    simp [hR]

theorem build_keepsLast (roots : List RootVariable) (t : TestCase) (m : CodeMap) :
    KeepsLast roots (build roots t m) :=
  foldl_prefix_run (MethodInputs.addRoot t m) KeepsLast ⟨.nil, by simp [lastConstant?]⟩
    (fun _ R _ h => h.addRoot R) roots

/-- The last constant of an identity is pushed by a constant root of that identity. -/
theorem exists_root_of_lastConstant? {roots : List RootVariable} {k : String} {c : Value}
    (h : lastConstant? roots k = some c) :
    ∃ R ∈ roots, R.isConstant = true ∧ R.instruction.id = k ∧
      R.instruction.constantValue? = some c := by
  obtain ⟨R, hR, hf⟩ := List.mem_filterMap.1 (List.mem_of_getLast? h)
  split at hf
  · rename_i hcond
    exact ⟨R, hR, hcond.1, hcond.2, hf⟩
  · cases hf

/-- When the constant roots of one identity push one literal, that literal is the last constant
of the identity. -/
theorem lastConstant?_of_agree {roots : List RootVariable} (hagree : ConstantsAgree roots)
    {R : RootVariable} (hR : R ∈ roots) (hconst : R.isConstant = true) {c : Value}
    (hc : R.instruction.constantValue? = some c) :
    lastConstant? roots R.instruction.id = some c := by
  have hmem : c ∈ roots.filterMap fun R' =>
      if R'.isConstant = true ∧ R'.instruction.id = R.instruction.id then
        R'.instruction.constantValue? else none :=
    List.mem_filterMap.2 ⟨R, hR, by simp [hconst, hc]⟩
  -- the list of literals of the identity is not empty; its last one is pushed by a root that
  -- agrees with `R`
  have hlast := List.getLast?_eq_some_getLast (List.ne_nil_of_mem hmem)
  obtain ⟨R', hR', hconst', hid', hcv'⟩ := exists_root_of_lastConstant? hlast
  unfold lastConstant?
  rw [hlast]
  exact congrArg some (hagree R hR R' hR' hconst hconst' hid'.symm c _ hc hcv').symm

end Constants

/-! ## What the inputs hold -/

theorem bind_primitiveValue?_eq_some {t : TestCase} {q : Nat} {v : Value} :
    (t.get? q).bind Statement.primitiveValue? = some v ↔
      ∃ st, t.get? q = some st ∧ st.kind = .primitive v := by
  cases t.get? q with
  | none => simp
  | some st => simp [Statement.primitiveValue?_eq_some]

/-- **The inputs built for some roots.** The variables hold exactly the non-null primitive
values of the positions some non-constant root feeds through the map: a node of its tree (each
key once) is mapped to a reference that points at the position, or at an array statement into
which an element stored at the position is assigned. The constants hold, for each instruction
identity, the literal of the last constant root of that identity that pushes one; when the
constant roots of one identity push one literal, each constant root's literal is held under its
identity. No mutation is recorded. So the variables do not depend on the order or repetition of
the roots, and neither do the constants when the constant roots of one identity agree. -/
theorem build_characterization (roots : List RootVariable) (t : TestCase) (m : CodeMap) :
    let ins := build roots t m
    (∀ q v, (q, v) ∈ ins.primitives ↔
      v ≠ .null ∧ (∃ st, t.get? q = some st ∧ st.kind = .primitive v) ∧ Feeds roots t m q) ∧
    (∀ k c, (k, c) ∈ ins.constants ↔ lastConstant? roots k = some c) ∧
    (ConstantsAgree roots → ∀ R ∈ roots, R.isConstant = true → ∀ c,
      R.instruction.constantValue? = some c → (R.instruction.id, c) ∈ ins.constants) ∧
    ins.mutation = none ∧
    ∀ roots' : List RootVariable, (∀ R, R ∈ roots' ↔ R ∈ roots) →
      (build roots' t m).primitives = ins.primitives ∧
      (ConstantsAgree roots → (build roots' t m).constants = ins.constants) := by
  intro ins
  have hvars := build_collects roots t m
  have hconsts := build_keepsLast roots t m
  refine ⟨fun q v => ?_, hconsts.mem_iff, fun hagree R hR hconst c hc => ?_, build_mutation roots,
    fun roots' hsame => ⟨?_, fun hagree => ?_⟩⟩
  · rw [hvars.mem_iff, bind_primitiveValue?_eq_some]
  · exact (hconsts.mem_iff _ _).2 (lastConstant?_of_agree hagree hR hconst hc)
  · -- the same roots feed the same positions
    have hvars' := build_collects roots' t m
    have hfeeds : ∀ q, Feeds roots' t m q ↔ Feeds roots t m q := fun q => by
      simp only [Feeds, hsame]
    refine eq_of_keys_sorted hvars'.sorted hvars.sorted fun ⟨q, v⟩ => ?_
    rw [hvars'.mem_iff, hvars.mem_iff, hfeeds]
  · -- agreeing constant roots leave one literal per identity, whatever their order
    have hconsts' := build_keepsLast roots' t m
    have hagree' : ConstantsAgree roots' := fun R₁ h₁ R₂ h₂ =>
      hagree R₁ ((hsame R₁).1 h₁) R₂ ((hsame R₂).1 h₂)
    refine eq_of_keys_sorted hconsts'.sorted hconsts.sorted fun ⟨k, c⟩ => ?_
    rw [hconsts'.mem_iff, hconsts.mem_iff]
    constructor
    · intro h
      obtain ⟨R, hR, hconst, rfl, hc⟩ := exists_root_of_lastConstant? h
      exact lastConstant?_of_agree hagree ((hsame R).1 hR) hconst hc
    · intro h
      obtain ⟨R, hR, hconst, rfl, hc⟩ := exists_root_of_lastConstant? h
      exact lastConstant?_of_agree hagree' ((hsame R).2 hR) hconst hc

/-- Two constant roots of one instruction identity push `1` and then `2`: the constants keep the
later literal only, so the earlier root's literal is not held under its identity. -/
theorem build_keeps_later_literal :
    let push₁ : Instruction := ⟨"com.example.Calc", "targetM(I)I", 0, .bipush, some (.int 1)⟩
    let push₂ : Instruction := ⟨"com.example.Calc", "targetM(I)I", 0, .bipush, some (.int 2)⟩
    let R₁ := RootVariable.mk .constant push₁ []
    let R₂ := RootVariable.mk .constant push₂ []
    R₁.isConstant = true ∧ push₁.constantValue? = some (.int 1) ∧
      (push₁.id, Value.int 1) ∉ (build [R₁, R₂] ({} : TestCase) ({} : CodeMap)).constants := by
  intro push₁ push₂ R₁ R₂
  -- the two instructions differ only in their operand, which the identity leaves out
  have hid : push₂.id = push₁.id := rfl
  have hlast : lastConstant? [R₁, R₂] push₁.id = some (.int 2) := by
    simp [lastConstant?, hid, R₁, R₂, push₂, RootVariable.isConstant, RootVariable.kind,
      RootVariable.instruction, Instruction.constantValue?]
  refine ⟨rfl, rfl, fun h => ?_⟩
  rw [(build_keepsLast _ _ _).mem_iff, hlast, Option.some.injEq, Value.int.injEq] at h
  exact absurd h (by decide)

end MethodInputs

end BranchSensitivity

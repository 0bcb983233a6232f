import BranchSensitivity.Proofs.Descent

/-!
# Resolution goes through its stages in order

A constant root resolves to the value its instruction pushes, or fails, without reading the test
or the map and without a draw. Any other root settles on one position, the first that its stages
give:

1. the least position in range among the map's references for it;
2. the statement its kind names, when that is in range: a parameter's argument of the target
   call (numbered from one), a field's last defining statement;
3. the first argument of the target call in range.

A reference or an argument out of range is passed over. The root resolves to the root value
statement of the position settled on, and the descent to it makes the only draws of the
resolution; when no stage gives a position, resolution fails and draws nothing:

    r.resolve root t m s = match r.stagePosition root t m with
      | some p => (.ok (.statement (t.descend t.len p s).1), (t.descend t.len p s).2)
      | none => (.error (.resolutionFailure (root.key ++ " has no statement in the seed")), s)

The last defining statement of a field is the greatest position whose statement defines it
(`fieldStatement?_eq_some_iff`).
-/

namespace BranchSensitivity

open BranchSensitivity.Random

namespace TestCase

/-! ## The descent as one draw -/

/-- Going on after a descent: from its root value statement in range, from nothing out of range,
with the draws untouched. -/
theorem bind_rootValue {α : Type} (t : TestCase) (p : Nat) (k : Option Nat → Draw α) (s : Rng) :
    StateT.bind (t.rootValue p) k s =
      if p < t.len then k (some (t.descend t.len p s).1) (t.descend t.len p s).2 else k none s := by
  by_cases hp : p < t.len
  · simp only [StateT.bind, rootValue_run_of_lt hp, hp, if_true]
    rfl
  · simp only [StateT.bind, rootValue_run_of_le (Nat.not_lt.mp hp), hp, if_false]
    rfl

/-! ## The last statement defining a field -/

/-- A statement defines a field when its variable is the field or a field of that name, or when
it calls the field's setter, ASCII case ignored, on a type with the owner's internal name. -/
def DefinesField (owner : TypeName) (field : String) (st : Statement) : Prop :=
  st.name = field ∨ ("." ++ field).toList <:+ st.name.toList ∨
    ∃ c, st.kind = .method c ∧
      c.methodName.toList.map Char.toLower = ("set" ++ field).toList.map Char.toLower ∧
      c.owner.internalName = owner.internalName

theorem definesField_iff (owner : TypeName) (field : String) (st : Statement) :
    definesField owner field st = true ↔ DefinesField owner field st := by
  unfold definesField DefinesField
  cases hk : st.kind <;> simp [or_assoc]

/-- Searching the numbered items of a list from the back finds the last one that passes. -/
theorem find?_reverse_zipIdx {α : Type} (P : α × Nat → Bool) (l : List α) (q : Nat) :
    (l.zipIdx.reverse.find? P).map (·.2) = some q ↔
      ∃ a, l[q]? = some a ∧ P (a, q) = true ∧
        ∀ q' b, q < q' → l[q']? = some b → P (b, q') = false := by
  induction l using List.reverseRecOn with
  | nil => simp
  | append_singleton l a ih =>
    rw [List.zipIdx_append, List.reverse_append]
    simp only [List.zipIdx_cons, List.zipIdx_nil, Nat.zero_add, List.reverse_cons,
      List.reverse_nil, List.nil_append, List.singleton_append, List.find?_cons]
    by_cases ha : P (a, l.length) = true
    · -- the new last item passes: it is the one found
      rw [ha]
      simp only [Option.map_some, Option.some.injEq]
      constructor
      · rintro rfl
        refine ⟨a, by simp, ha, fun q' b hq' hb => ?_⟩
        rw [List.getElem?_eq_none (by simp; omega)] at hb
        cases hb
      · rintro ⟨b, hb, hP, hlater⟩
        by_contra hne
        have hlt : q < l.length := by
          have := (List.getElem?_eq_some_iff.mp hb).1
          simp at this
          omega
        have := hlater l.length a hlt (by simp)
        rw [ha] at this
        cases this
    · -- it fails: the search goes on among the earlier items
      rw [Bool.not_eq_true] at ha
      rw [ha, ih]
      constructor
      · rintro ⟨b, hb, hP, hlater⟩
        have hlt : q < l.length := (List.getElem?_eq_some_iff.mp hb).1
        refine ⟨b, by rw [List.getElem?_append_left hlt]; exact hb, hP, fun q' c hq' hc => ?_⟩
        rcases Nat.lt_or_ge q' l.length with h' | h'
        · rw [List.getElem?_append_left h'] at hc
          exact hlater q' c hq' hc
        · rw [List.getElem?_append_right h'] at hc
          obtain ⟨rfl, rfl⟩ : q' = l.length ∧ a = c := by
            rcases Nat.eq_or_lt_of_le h' with h'' | h''
            · subst h''
              simpa using hc
            · rw [List.getElem?_eq_none (by simp; omega)] at hc
              cases hc
          exact ha
      · rintro ⟨b, hb, hP, hlater⟩
        have hlt : q < l.length := by
          rcases Nat.lt_or_ge q l.length with h' | h'
          · exact h'
          · rw [List.getElem?_append_right h'] at hb
            rcases Nat.eq_or_lt_of_le h' with h'' | h''
            · subst h''
              simp at hb
              subst hb
              rw [ha] at hP
              cases hP
            · rw [List.getElem?_eq_none (by simp; omega)] at hb
              cases hb
        rw [List.getElem?_append_left hlt] at hb
        refine ⟨b, hb, hP, fun q' c hq' hc => hlater q' c hq' ?_⟩
        have hq'l : q' < l.length := (List.getElem?_eq_some_iff.mp hc).1
        rw [List.getElem?_append_left hq'l]
        exact hc

/-- The last defining statement of a field is the greatest position whose statement defines
it. -/
theorem fieldStatement?_eq_some_iff (t : TestCase) (owner : TypeName) (field : String) (q : Nat) :
    t.fieldStatement? owner field = some q ↔
      ∃ st, t.get? q = some st ∧ DefinesField owner field st ∧
        ∀ q' st', q < q' → t.get? q' = some st' → ¬ DefinesField owner field st' := by
  unfold fieldStatement? get?
  rw [find?_reverse_zipIdx]
  simp only [← definesField_iff, Bool.not_eq_true]

end TestCase

namespace Resolver

/-! ## The stages -/

/-- A fold that keeps, of the reference held and the next one, the one of least position (the
held one on ties) ends with the least position. -/
theorem foldl_least_position {f : Option VarRef → VarRef → Option VarRef}
    (hsome : ∀ b r, f (some b) r = if b.position ≤ r.position then some b else some r) :
    ∀ (l : List VarRef) (b : VarRef),
      (l.foldl f (some b)).map (·.position) = some ((l.map (·.position)).foldl min b.position) := by
  intro l
  induction l with
  | nil => intro b; rfl
  | cons r rs ih =>
    intro b
    rw [List.foldl_cons, hsome, List.map_cons, List.foldl_cons]
    by_cases hle : b.position ≤ r.position
    · rw [if_pos hle, Nat.min_eq_left hle]
      exact ih b
    · rw [if_neg hle, Nat.min_eq_right (by omega)]
      exact ih r

/-- The earliest reference in range has the least position in range. -/
theorem earliest?_position (refs : List VarRef) (t : TestCase) :
    (earliest? refs t).map (·.position) = ((refs.map (·.position)).filter (· < t.len)).min? := by
  unfold earliest?
  rw [List.filter_map, Function.comp_def]
  cases refs.filter (fun r => decide (r.position < t.len)) with
  | nil => rfl
  | cons r rs =>
    rw [List.foldl_cons]
    exact foldl_least_position (fun _ _ => rfl) rs r

/-- The target-call fallback settles on the first argument in range. -/
theorem firstRootValue_run (t : TestCase) (ps : List Nat) (s : Rng) :
    firstRootValue t ps s = match ps.find? (· < t.len) with
      | some q => (some (t.descend t.len q s).1, (t.descend t.len q s).2)
      | none => (none, s) := by
  induction ps with
  | nil => rfl
  | cons p ps ih =>
    by_cases hp : p < t.len
    · simp only [firstRootValue, bind, StateT.bind, TestCase.rootValue_run_of_lt hp,
        List.find?_cons, hp, decide_true]
      rfl
    · simp only [firstRootValue, bind, StateT.bind, TestCase.rootValue_run_of_le (Nat.not_lt.mp hp),
        List.find?_cons, hp, decide_false]
      exact ih

/-- Going on after the target-call fallback. -/
theorem bind_firstRootValue {α : Type} (t : TestCase) (ps : List Nat) (k : Option Nat → Draw α)
    (s : Rng) : StateT.bind (firstRootValue t ps) k s = match ps.find? (· < t.len) with
      | some q => k (some (t.descend t.len q s).1) (t.descend t.len q s).2
      | none => k none s := by
  show k (firstRootValue t ps s).1 (firstRootValue t ps s).2 = _
  rw [firstRootValue_run]
  split <;> rfl

theorem bind_pure_apply {α β : Type} (a : α) (k : α → Draw β) (s : Rng) :
    StateT.bind (pure a) k s = k a s := rfl

/-- The position the stages of resolution settle on, for a root that is no constant: the least
position in range among the map's references, else the statement its kind names when that is in
range, else the first argument of the target call in range. -/
def stagePosition (r : Resolver) (root : RootVariable) (t : TestCase) (m : CodeMap) : Option Nat :=
  ((((m.get? root).getD []).map (·.position)).filter (· < t.len)).min?.or
    (((r.kindPosition root t).filter (· < t.len)).or
      (((r.targetParams t).map (·.position)).find? (· < t.len)))

/-- **Resolution goes through its stages in order.** A constant resolves by its instruction
alone; any other root resolves to the root value statement of the first position its stages
give, and fails when they give none. Only the final descent draws. The statement a field names
is the last one defining it. -/
theorem resolve_stages (r : Resolver) (root : RootVariable) (t : TestCase) (m : CodeMap) (s : Rng) :
    r.resolve root t m s =
      (if root.isConstant then
        (match root.instruction.constantValue? with
          | some v => .ok (.constant v)
          | none => .error (.resolutionFailure (root.instruction.id ++ " is not a known constant")),
          s)
      else
        match r.stagePosition root t m with
        | some p => (.ok (.statement (t.descend t.len p s).1), (t.descend t.len p s).2)
        | none => (.error (.resolutionFailure (root.key ++ " has no statement in the seed")), s)) ∧
    ∀ owner field q, t.fieldStatement? owner field = some q ↔
      ∃ st, t.get? q = some st ∧ TestCase.DefinesField owner field st ∧
        ∀ q' st', q < q' → t.get? q' = some st' → ¬ TestCase.DefinesField owner field st' := by
  refine ⟨?_, t.fieldStatement?_eq_some_iff⟩
  unfold resolve
  by_cases hc : root.isConstant
  · simp only [hc, if_true]
    rfl
  simp only [hc, Bool.false_eq_true, if_false, bind]
  unfold stagePosition
  -- the map: its earliest reference in range has the least position in range
  have hmap : ((m.get? root).bind (earliest? · t)).map (·.position) =
      ((((m.get? root).getD []).map (·.position)).filter (· < t.len)).min? := by
    rw [← earliest?_position]
    cases m.get? root <;> rfl
  rw [← hmap]
  rcases hm : (m.get? root).bind (earliest? · t) with _ | ref
  · dsimp only
    rw [bind_pure_apply, Option.map_none, Option.none_or]
    dsimp only
    -- the kind's statement, when in range; else the first argument of the target call in range
    rcases hk : r.kindPosition root t with _ | q
    · dsimp only
      rw [bind_pure_apply, Option.filter_none, Option.none_or]
      dsimp only
      rw [bind_firstRootValue]
      split <;> rfl
    · by_cases hq : q < t.len
      · simp only [TestCase.bind_rootValue, hq, if_true, Option.filter_some, decide_true,
          Option.some_or]
        rfl
      · simp only [TestCase.bind_rootValue, hq, if_false, Option.filter_some, decide_false,
          Bool.false_eq_true, Option.none_or]
        rw [bind_firstRootValue]
        split <;> rfl
  · have hlt : ref.position < t.len := by
      have := hmap
      rw [hm, Option.map_some] at this
      exact of_decide_eq_true (List.mem_filter.mp (List.min?_mem this.symm)).2
    simp only [TestCase.bind_rootValue, hlt, if_true, Option.map_some, Option.some_or]
    rfl

end Resolver

end BranchSensitivity

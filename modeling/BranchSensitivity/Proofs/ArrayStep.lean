import BranchSensitivity.Proofs.Descent

/-!
# The array step of the descent takes the first assignment

From an array with one length `n > 0`, a step of the descent goes to the value assigned to the
array's last element `n - 1`. The element assignments are scanned forward from the array, and
the step takes the *first* one to that element:

    t.statements.drop a = pre ++ w :: post → w writes a[n - 1] := p →
      no statement of pre writes a[n - 1] → t.descentStep a st s = (some p, s)

and then the descent hops to `p` when it is another statement in range. An element assigned
once at or after the array is assigned last there too, and the step takes the value in force
when the target runs. When the element is assigned twice, the first value is taken, not the
later one that overrides it (`array_step_takes_first_assignment`); the field scan, by contrast,
walks backward to the last definition.
-/

namespace BranchSensitivity

open BranchSensitivity.Random

/-- The array, element and value position a statement assigns, if it assigns an array element. -/
def Statement.elementWrite? (s : Statement) : Option (Nat × Nat × Nat) :=
  match s.kind with
  | .assignment ⟨.arrayIndex array index, value⟩ => some (array, index, value.position)
  | _ => none

namespace TestCase

/-- The element assignments of an array are the element writes into it, from its position on. -/
theorem arrayElements_eq (t : TestCase) (a : Nat) :
    t.arrayElements a = (t.statements.drop a).filterMap fun s =>
      s.elementWrite?.bind fun w => if w.1 == a then some w.2 else none := by
  unfold arrayElements
  congr 1
  funext s
  rcases s with ⟨name, ty, kind⟩
  cases kind with
  | assignment asg =>
    rcases asg with ⟨target, value⟩
    cases target <;> rfl
  | _ => rfl

variable {t : TestCase} {a n p : Nat} {pre post : List Statement} {w : Statement}

/-- Scanning for element `i` of the array at `a` passes over statements that write no value to
it, and stops at the first that does. -/
theorem find?_arrayElements (hsplit : t.statements.drop a = pre ++ w :: post) {i : Nat}
    (hw : w.elementWrite? = some (a, i, p))
    (hpre : ∀ s ∈ pre, ∀ p', s.elementWrite? ≠ some (a, i, p')) :
    (t.arrayElements a).find? (·.1 == i) = some (i, p) := by
  have hnone : (pre.filterMap fun s =>
      s.elementWrite?.bind fun w => if w.1 == a then some w.2 else none).find? (·.1 == i) = none := by
    -- a write of `pre` into the array names another element
    rw [List.find?_eq_none]
    intro e he
    obtain ⟨s, hs, hse⟩ := List.mem_filterMap.1 he
    obtain ⟨⟨b, j, q⟩, hsw, hb⟩ := Option.bind_eq_some_iff.1 hse
    simp only [beq_iff_eq] at hb
    split at hb
    · rename_i hba
      cases hb
      simp only [beq_iff_eq]
      rintro rfl
      exact hpre s hs q (by rw [hsw, hba])
    · cases hb
  rw [arrayElements_eq, hsplit, List.filterMap_append, List.find?_append, hnone, Option.none_or,
    List.filterMap_cons, hw]
  simp

variable {st : Statement}

/-- **The array step goes to the first assignment of the last element.** From an array with
one length `n > 0`, the step takes the value of the first statement at or after the array that
assigns its element `n - 1`, and draws nothing; the descent then hops there when it is another
statement in range. -/
theorem descentStep_array_first (hn : 0 < n) (hk : st.kind = .array [n])
    (hsplit : t.statements.drop a = pre ++ w :: post) (hw : w.elementWrite? = some (a, n - 1, p))
    (hpre : ∀ s ∈ pre, ∀ p', s.elementWrite? ≠ some (a, n - 1, p')) (s : Rng) :
    t.descentStep a st s = (some p, s) ∧
      (t.get? a = some st → p ≠ a → p < t.len → t.hop a s = some (p, s)) := by
  have hstep : t.descentStep a st s = (some p, s) := by
    unfold descentStep
    rw [hk]
    dsimp only
    rw [if_pos hn, decrement_of_pos hn, pure_bind, find?_arrayElements hsplit hw hpre]
    rfl
  refine ⟨hstep, fun ha hne hlt => ?_⟩
  unfold hop
  rw [ha]
  dsimp only
  rw [hstep]
  simp [hne, hlt]

/-- An int array of two elements, each assigned once: the step goes to the value of element one,
the array's last. -/
theorem two_elements_step_into_last :
    let arr : Statement := ⟨"intArray0", ⟨"int[]"⟩, .array [2]⟩
    let pre : List Statement := [arr, ⟨"int0", ⟨"int"⟩, .primitive (.int 1)⟩,
      ⟨"intArray0[0]", ⟨"int"⟩, .assignment ⟨.arrayIndex 0 0, ⟨1, ⟨"int"⟩⟩⟩⟩,
      ⟨"int1", ⟨"int"⟩, .primitive (.int 2)⟩]
    let w : Statement := ⟨"intArray0[1]", ⟨"int"⟩, .assignment ⟨.arrayIndex 0 1, ⟨3, ⟨"int"⟩⟩⟩⟩
    let t : TestCase := ⟨pre ++ [w]⟩
    0 < 2 ∧ arr.kind = .array [2] ∧ t.statements.drop 0 = pre ++ w :: [] ∧
      w.elementWrite? = some (0, 2 - 1, 3) ∧ (∀ s ∈ pre, ∀ p', s.elementWrite? ≠ some (0, 2 - 1, p')) ∧
      t.descentStep 0 arr (Rng.ofSeed 0) = (some 3, Rng.ofSeed 0) ∧
      (t.get? 0 = some arr → 3 ≠ 0 → 3 < t.len → t.hop 0 (Rng.ofSeed 0) = some (3, Rng.ofSeed 0)) := by
  intro arr pre w t
  have hpre : ∀ s ∈ pre, ∀ p', s.elementWrite? ≠ some (0, 2 - 1, p') := by
    intro s hs p'
    simp only [pre, List.mem_cons, List.not_mem_nil, or_false] at hs
    rcases hs with rfl | rfl | rfl | rfl <;> simp [Statement.elementWrite?, arr]
  exact ⟨by decide, rfl, rfl, rfl, hpre,
    descentStep_array_first (by decide) rfl (w := w) rfl rfl hpre (Rng.ofSeed 0)⟩

/-- Element zero of a one-element array, assigned twice: the descent takes the first value, at
position one, not the value at position three assigned last. -/
theorem array_step_takes_first_assignment :
    let t : TestCase := ⟨[⟨"intArray0", ⟨"int[]"⟩, .array [1]⟩, ⟨"int0", ⟨"int"⟩, .primitive (.int 1)⟩,
      ⟨"intArray0[0]", ⟨"int"⟩, .assignment ⟨.arrayIndex 0 0, ⟨1, ⟨"int"⟩⟩⟩⟩,
      ⟨"int1", ⟨"int"⟩, .primitive (.int 2)⟩,
      ⟨"intArray0[0]", ⟨"int"⟩, .assignment ⟨.arrayIndex 0 0, ⟨3, ⟨"int"⟩⟩⟩⟩]⟩
    t.arrayElements 0 = [(0, 1), (0, 3)] ∧ (t.rootValue 0 (Rng.ofSeed 0)).1 = some 1 := by
  decide +kernel

end TestCase

end BranchSensitivity

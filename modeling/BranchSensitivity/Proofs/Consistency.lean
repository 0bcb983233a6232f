import Mathlib.Data.List.Induction
import BranchSensitivity.Proofs.FreshNames

/-!
# Consistent test cases

A test case is consistent when every statement refers only to itself and to statements before
it; the check looks for dangling references, those past their statement or past the end, and a
reference to the statement itself or earlier is never past the end:

    t.isConsistent = true ↔ t.Consistent

Appending a statement that refers into the test, calling a builder with references into it,
overwriting a primitive value and replacing a statement by one that refers at most to its own
position each keep a test consistent (`Consistent.apply`), so any sequence of such edits does
(`Consistent.run`), and builder calls from the empty test on references they returned make a
consistent test (`consistent_ofBuilders`).
-/

namespace BranchSensitivity

namespace TestCase

/-- Every statement refers only to itself and to statements before it. -/
def Consistent (t : TestCase) : Prop :=
  ∀ (i : Nat) (s : Statement), t.statements[i]? = some s → ∀ r ∈ s.references, r ≤ i

/-- The check finds no dangling reference exactly when every statement refers back: a reference
to the statement itself or an earlier one is also within the test. -/
theorem isConsistent_iff (t : TestCase) : t.isConsistent = true ↔ t.Consistent := by
  unfold isConsistent danglingReferences Consistent
  rw [List.isEmpty_iff, List.flatten_eq_nil_iff]
  constructor
  · intro h i s hs r hr
    have hmem : (s, i) ∈ t.statements.zipIdx := List.mem_zipIdx_iff_getElem?.mpr hs
    have hnone := h _ (List.mem_map_of_mem hmem)
    simp only [List.map_eq_nil_iff, List.filter_eq_nil_iff, Bool.or_eq_true, decide_eq_true_eq,
      not_or, not_lt] at hnone
    exact (hnone r hr).1
  · intro h l hl
    obtain ⟨⟨s, i⟩, hmem, rfl⟩ := List.mem_map.1 hl
    have hs := List.mem_zipIdx_iff_getElem?.1 hmem
    have hi : i < t.len := (List.getElem?_eq_some_iff.1 hs).1
    simp only [List.map_eq_nil_iff, List.filter_eq_nil_iff, Bool.or_eq_true, decide_eq_true_eq,
      not_or, not_lt]
    intro r hr
    have hle := h i s hs r hr
    exact ⟨hle, by omega⟩

theorem consistent_empty : ({} : TestCase).Consistent := by
  intro i s hs
  simp at hs

/-- Appending a statement that refers into the test keeps it consistent. -/
theorem Consistent.push {t : TestCase} (h : t.Consistent) {s : Statement}
    (hs : ∀ r ∈ s.references, r < t.len) : (t.push s).2.Consistent := by
  intro i st hst r hr
  rw [push_statements] at hst
  rcases Nat.lt_or_ge i t.len with hi | hi
  · rw [List.getElem?_append_left hi] at hst
    exact h i st hst r hr
  · -- the only statement from the end on is the new one
    rw [List.getElem?_append_right hi] at hst
    obtain ⟨hlt, hget⟩ := List.getElem?_eq_some_iff.1 hst
    rw [List.getElem_singleton] at hget
    subst hget
    have := hs r hr
    simp only [List.length_singleton] at hlt
    omega

/-- Putting at a position a statement that refers to it or before keeps a test consistent. -/
theorem Consistent.set {t : TestCase} (h : t.Consistent) {p : Nat} {s : Statement}
    (hs : ∀ r ∈ s.references, r ≤ p) : (⟨t.statements.set p s⟩ : TestCase).Consistent := by
  intro i st hst r hr
  rw [List.getElem?_set] at hst
  by_cases hpi : p = i
  · subst hpi
    rw [if_pos rfl] at hst
    split at hst
    · cases hst
      exact hs r hr
    · cases hst
  · rw [if_neg hpi] at hst
    exact h i st hst r hr

/-- Replacing the statement at a position by one that refers to it or before keeps a test
consistent; the name it keeps changes no reference. -/
theorem Consistent.replace {t : TestCase} (h : t.Consistent) {p : Nat} {s : Statement}
    (hs : ∀ r ∈ s.references, r ≤ p) : (t.replace p s).2.Consistent := by
  unfold TestCase.replace
  split
  · exact h.set hs
  · exact h

/-- Overwriting a primitive value keeps a test consistent: a primitive refers to nothing. -/
theorem Consistent.setPrimitive {t : TestCase} (h : t.Consistent) (p : Nat) (v : Value) :
    (t.setPrimitive p v).2.Consistent := by
  unfold TestCase.setPrimitive
  split
  · split
    · exact h.set (by simp [Statement.references])
    · exact h
  · exact h

/-- The positions of the references a builder call is given. -/
def Builder.referencePositions : Builder → List Nat
  | .primitive _ => []
  | .typedPrimitive _ _ => []
  | .null _ => []
  | .array _ _ => []
  | .constructor _ _ params => params.map (·.position)
  | .method receiver _ _ _ params _ => (receiver.toList ++ params).map (·.position)
  | .arrayAssignment target _ v => [target.position, v.position]
  | .fieldAssignment o _ _ v => o.toList.map (·.position) ++ [v.position]

/-- A builder call appends one statement, whose references are references the call was given. -/
theorem Builder.apply_eq_push (c : Builder) (t : TestCase) :
    ∃ s, c.apply t = (t.push s).2 ∧ ∀ r ∈ s.references, r ∈ c.referencePositions := by
  cases c with
  | primitive v | typedPrimitive ty v | null ty | array ty lengths =>
    -- a declaring value statement refers to nothing
    exact ⟨_, rfl, fun r hr => by simp [Statement.references] at hr⟩
  | constructor owner d params =>
    exact ⟨_, rfl, fun r hr => by simpa [Statement.references, referencePositions] using hr⟩
  | method callee owner n d params returnType => exact ⟨_, rfl, fun r hr => hr⟩
  | arrayAssignment target i v =>
    -- an assignment names its value first, then where it assigns
    refine ⟨_, rfl, fun r hr => ?_⟩
    simp only [Statement.references, referencePositions, List.mem_cons, List.not_mem_nil,
      or_false] at hr ⊢
    exact hr.symm
  | fieldAssignment o ownerType field v =>
    refine ⟨_, rfl, fun r hr => ?_⟩
    cases o with
    | none => simpa [Statement.references, referencePositions] using hr
    | some o =>
      simp only [Statement.references, referencePositions, Option.map_some, Option.toList_some,
        List.map_cons, List.map_nil, List.cons_append, List.nil_append, List.mem_cons,
        List.not_mem_nil, or_false] at hr ⊢
      exact hr.symm

/-! ## Sequences of edits -/

/-- An edit of a test case: append a statement, call a builder, overwrite the value of a
primitive statement, or replace a statement. -/
inductive Edit where
  | push (s : Statement)
  | build (c : Builder)
  | setPrimitive (p : Nat) (v : Value)
  | replace (p : Nat) (s : Statement)

namespace Edit

/-- Make the edit. -/
def apply : Edit → TestCase → TestCase
  | .push s, t => (t.push s).2
  | .build c, t => c.apply t
  | .setPrimitive p v, t => (t.setPrimitive p v).2
  | .replace p s, t => (t.replace p s).2

/-- What an edit may refer to: an appended statement, or a builder call's arguments, into the
test; a replacing statement, at most to its own position. Overwriting a value refers to
nothing. -/
def Admissible : Edit → TestCase → Prop
  | .push s, t => ∀ r ∈ s.references, r < t.len
  | .build c, t => ∀ r ∈ c.referencePositions, r < t.len
  | .setPrimitive _ _, _ => True
  | .replace p s, _ => ∀ r ∈ s.references, r ≤ p

/-- Make edits in order. -/
def run (es : List Edit) (t : TestCase) : TestCase := es.foldl (fun t e => e.apply t) t

/-- Each edit of a sequence is admissible on the test it is made on. -/
def AdmissibleRun : List Edit → TestCase → Prop
  | [], _ => True
  | e :: es, t => e.Admissible t ∧ AdmissibleRun es (e.apply t)

end Edit

/-- An admissible edit keeps a test consistent. -/
theorem Consistent.apply {t : TestCase} (h : t.Consistent) (e : Edit) (he : e.Admissible t) :
    (e.apply t).Consistent := by
  cases e with
  | push s => exact h.push he
  | build c =>
    obtain ⟨s, hc, hrefs⟩ := c.apply_eq_push t
    rw [Edit.apply, hc]
    exact h.push fun r hr => he r (hrefs r hr)
  | setPrimitive p v => exact h.setPrimitive p v
  | replace p s => exact h.replace he

/-- Admissible edits, any number in any order, keep a test consistent. -/
theorem Consistent.run (es : List Edit) :
    ∀ t : TestCase, t.Consistent → Edit.AdmissibleRun es t → (Edit.run es t).Consistent := by
  induction es with
  | nil => intro t h _; exact h
  | cons e es ih =>
    rintro t h ⟨he, hes⟩
    exact ih (e.apply t) (h.apply e he) hes

/-- Builder calls from the empty test, each given references to earlier calls' statements, make a
consistent test. -/
theorem consistent_ofBuilders (calls : List Builder)
    (h : ∀ (i : Nat) (c : Builder), calls[i]? = some c → ∀ r ∈ c.referencePositions, r < i) :
    (ofBuilders calls).Consistent := by
  induction calls using List.reverseRecOn with
  | nil => exact consistent_empty
  | append_singleton calls c ih =>
    have hprev : (ofBuilders calls).Consistent := ih fun i c' hc' => h i c' (by
      rw [List.getElem?_append_left (List.getElem?_eq_some_iff.1 hc').1]
      exact hc')
    rw [ofBuilders_append_singleton]
    -- the call before which `calls.length` statements stand refers below that
    refine hprev.apply (.build c) fun r hr => ?_
    rw [len, (ofBuilders_statements calls).1]
    exact h calls.length c (by simp) r hr

/-- **Consistency is kept.** A test is consistent exactly when every statement refers only to
itself and earlier statements. Appending a statement that refers into the test, calling a builder
with references into it, overwriting a primitive value, and replacing a statement by one that
refers at most to its own position keep a test consistent, in any number and order; so every test
built from the empty one by builder calls on references they returned is consistent. -/
theorem consistency_kept_by_edits :
    (∀ t : TestCase, t.isConsistent = true ↔
      ∀ (i : Nat) (s : Statement), t.statements[i]? = some s → ∀ r ∈ s.references, r ≤ i) ∧
    (∀ (t : TestCase) (es : List Edit), t.isConsistent = true → Edit.AdmissibleRun es t →
      (Edit.run es t).isConsistent = true) ∧
    ∀ calls : List Builder, (∀ (i : Nat) (c : Builder), calls[i]? = some c →
      ∀ r ∈ c.referencePositions, r < i) →
      (ofBuilders calls).isConsistent = true := by
  refine ⟨isConsistent_iff, fun t es ht hes => ?_, fun calls h => ?_⟩
  · rw [isConsistent_iff] at ht ⊢
    exact Consistent.run es t ht hes
  · exact (isConsistent_iff _).2 (consistent_ofBuilders calls h)

end TestCase

end BranchSensitivity

import Mathlib
import BranchSensitivity.Test.Case

/-!
# Fresh variable names

A declaring builder names its variable `stem ++ toString n`: the stem comes from the declared
type, and `n` counts the statements already named by the stem followed by digits. The variable
is itself named so, so the count of a stem grows past it, and a later variable of the same stem
gets a larger number. Two stems give one name only when one is the other followed by digits:

    (∀ a b ∈ the declared stems, isNumbered a b = false) →
      the declaring statements of `ofBuilders calls` have pairwise distinct names

This is all the builders guarantee. A variable of type `int1` is named `int10`; the tenth `int`
variable after it counts `int10` with its nine predecessors and is named `int10` too.
-/

namespace BranchSensitivity

namespace TestCase

/-! ## Sequences of builder calls -/

/-- A call of a builder of test cases: one of the six declaring builders, or an assignment. -/
inductive Builder where
  | primitive (v : Value)
  | typedPrimitive (ty : TypeName) (v : Value)
  | null (ty : TypeName)
  | array (ty : TypeName) (lengths : List Nat)
  | constructor (owner : TypeName) (descriptor : String) (params : List VarRef)
  | method (callee : Option VarRef) (owner : TypeName) (name descriptor : String)
      (params : List VarRef) (returnType : TypeName)
  | arrayAssignment (array : VarRef) (index : Nat) (value : VarRef)
  | fieldAssignment (owner : Option VarRef) (ownerType : TypeName) (field : String)
      (value : VarRef)
deriving Inhabited

namespace Builder

/-- Make the call on a test case. -/
def apply : Builder → TestCase → TestCase
  | .primitive v, t => (t.addPrimitive v).2
  | .typedPrimitive ty v, t => (t.addTypedPrimitive ty v).2
  | .null ty, t => (t.addNull ty).2
  | .array ty ls, t => (t.addArray ty ls).2
  | .constructor owner d ps, t => (t.addConstructor owner d ps).2
  | .method callee owner n d ps rt, t => (t.addMethod callee owner n d ps rt).2
  | .arrayAssignment a i v, t => (t.addArrayAssignment a i v).2
  | .fieldAssignment o ot f v, t => (t.addFieldAssignment o ot f v).2

/-- The type a declaring call names its variable after; an assignment declares none. -/
def declaredType? : Builder → Option TypeName
  | .primitive v => some v.typeName
  | .typedPrimitive ty _ | .null ty | .array ty _ | .constructor ty _ _ => some ty
  | .method _ _ _ _ _ rt => some rt
  | .arrayAssignment .. | .fieldAssignment .. => none

/-- A call appends one statement; a declaring call names it freshly after its declared type. -/
theorem apply_statements (c : Builder) (t : TestCase) :
    ∃ st, (c.apply t).statements = t.statements ++ [st] ∧
      ∀ ty, c.declaredType? = some ty → st.name = t.freshName ty := by
  cases c <;> exact ⟨_, rfl, fun ty h => by cases h <;> rfl⟩

end Builder

/-- The test case a sequence of builder calls makes from the empty one. -/
def ofBuilders (calls : List Builder) : TestCase := calls.foldl (fun t c => c.apply t) {}

/-- The stems of the types the declaring calls declare. -/
def declaredStems (calls : List Builder) : List String :=
  (calls.filterMap Builder.declaredType?).map nameStem

/-! ## The statements of a sequence of calls -/

theorem ofBuilders_append_singleton (calls : List Builder) (c : Builder) :
    ofBuilders (calls ++ [c]) = c.apply (ofBuilders calls) := by
  rw [ofBuilders, List.foldl_append, List.foldl_cons, List.foldl_nil]
  rfl

/-- Statement `i` of a sequence of calls is made by call `i`, on the statements of the calls
before it, and later calls leave it alone; a declaring call names it freshly. -/
theorem ofBuilders_statements (calls : List Builder) :
    (ofBuilders calls).statements.length = calls.length ∧
      ∀ i c, calls[i]? = some c → ∀ ty, c.declaredType? = some ty →
        ((ofBuilders calls).statements[i]?).map (·.name) =
          some (TestCase.freshName ⟨(ofBuilders calls).statements.take i⟩ ty) := by
  induction calls using List.reverseRecOn with
  | nil => simp [ofBuilders]
  | append_singleton calls c ih =>
    obtain ⟨hlen, hnames⟩ := ih
    obtain ⟨st, hst, hname⟩ := c.apply_statements (ofBuilders calls)
    rw [ofBuilders_append_singleton, hst]
    refine ⟨by simp [hlen], fun i c' hc' ty hty => ?_⟩
    rcases Nat.lt_or_ge i calls.length with hi | hi
    · -- an earlier statement is left alone, and so are the statements before it
      rw [List.getElem?_append_left hi] at hc'
      rw [List.getElem?_append_left (by omega), List.take_append_of_le_length (by omega)]
      exact hnames i c' hc' ty hty
    · -- the new statement is named on all the statements before it
      have hi' : i = calls.length := by
        have := (List.getElem?_eq_some_iff.1 hc').1
        simp at this
        omega
      subst hi'
      simp only [List.getElem?_concat_length, Option.some.injEq] at hc'
      subst hc'
      rw [← hlen, List.getElem?_concat_length, List.take_left' rfl]
      simp [hname ty hty]

/-! ## Names numbered by a stem -/

/-- A number's decimal digits. -/
theorem digits_toString (n : Nat) : ∀ c ∈ (toString n).toList, c.isDigit = true := by
  intro c hc
  rw [Nat.toString_eq_repr, Nat.toList_repr] at hc
  exact Nat.isDigit_of_mem_toDigits (by decide) (by decide) hc

/-- Two numbers with the same decimal digits are equal. -/
theorem toString_injective {a b : Nat} (h : toString a = toString b) : a = b := by
  have h' := congrArg String.toList h
  rw [Nat.toString_eq_repr, Nat.toString_eq_repr, Nat.toList_repr, Nat.toList_repr] at h'
  rw [← Nat.ofDigitChars_ten_toDigits (n := a), h', Nat.ofDigitChars_ten_toDigits]

theorem isNumbered_iff {stem name : String} :
    isNumbered stem name = true ↔ ∃ d : List Char, d ≠ [] ∧ (∀ c ∈ d, c.isDigit = true) ∧
      name.toList = stem.toList ++ d := by
  unfold isNumbered
  simp only [Bool.and_eq_true, List.isPrefixOf_iff_prefix, Bool.not_eq_true',
    List.isEmpty_eq_false_iff, List.all_eq_true]
  constructor
  · rintro ⟨⟨d, hd⟩, hne, hall⟩
    rw [← hd, List.drop_left' String.length_toList] at hne hall
    exact ⟨d, hne, hall, hd.symm⟩
  · rintro ⟨d, hne, hall, hd⟩
    rw [hd, List.drop_left' String.length_toList]
    exact ⟨⟨d, rfl⟩, hne, hall⟩

/-- A name made of a stem and a number is numbered by the stem. -/
theorem isNumbered_append_toString (stem : String) (n : Nat) :
    isNumbered stem (stem ++ toString n) = true :=
  isNumbered_iff.2 ⟨(toString n).toList, by simp [Nat.toString_eq_repr, Nat.toList_repr],
    digits_toString n, String.toList_append⟩

/-- The count of names numbered by a stem grows past each such name. -/
theorem countP_take_lt {α : Type} {p : α → Bool} {l : List α} {i j : Nat} (hij : i < j)
    (hi : i < l.length) (hp : p l[i] = true) :
    (l.take i).countP p < (l.take j).countP p := by
  have hstep : (l.take (i + 1)).countP p = (l.take i).countP p + 1 := by
    rw [List.take_add_one, List.countP_append, List.getElem?_eq_getElem hi]
    simp [hp]
  have hmono := (List.take_sublist_take_left (l := l) (show i + 1 ≤ j by omega)).countP_le (p := p)
  omega

/-- Two names made of stems and numbers are different when the stems are equal and the numbers
are not, and when the stems differ and neither is the other followed by digits. -/
theorem stem_append_toString_ne {a b : String} {m n : Nat}
    (hstems : (a = b ∧ m ≠ n) ∨ (a ≠ b ∧ isNumbered a b = false ∧ isNumbered b a = false)) :
    a ++ toString m ≠ b ++ toString n := by
  intro h
  rcases hstems with ⟨rfl, hmn⟩ | ⟨hab, hnab, hnba⟩
  · exact hmn (toString_injective ((String.append_right_inj a).1 h))
  · have hl := congrArg String.toList h
    rw [String.toList_append, String.toList_append] at hl
    -- one stem ends where the other goes on; what it goes on with are digits of a number
    rcases List.append_eq_append_iff.1 hl with ⟨x, hb, hx⟩ | ⟨x, ha, hx⟩
    · have hx0 : x ≠ [] := fun e => hab (String.toList_inj.1 (by simpa [e] using hb.symm))
      have hdig : ∀ c ∈ x, c.isDigit = true := fun c hc =>
        digits_toString m c (hx ▸ List.mem_append_left _ hc)
      exact absurd (isNumbered_iff.2 ⟨x, hx0, hdig, hb⟩) (by simp [hnab])
    · have hx0 : x ≠ [] := fun e => hab (String.toList_inj.1 (by simpa [e] using ha))
      have hdig : ∀ c ∈ x, c.isDigit = true := fun c hc =>
        digits_toString n c (hx ▸ List.mem_append_left _ hc)
      exact absurd (isNumbered_iff.2 ⟨x, hx0, hdig, ha⟩) (by simp [hnba])

/-! ## Distinct names -/

/-- The name of a declaring statement of a sequence of calls: its stem, then the count of the
earlier statements numbered by the stem. -/
theorem name_ofBuilders {calls : List Builder} {i : Nat} {ty : TypeName}
    (h : (calls[i]?).bind Builder.declaredType? = some ty) :
    ∃ st, (ofBuilders calls).statements[i]? = some st ∧ st.name = nameStem ty ++
      toString (((ofBuilders calls).statements.take i).countP fun s => isNumbered (nameStem ty) s.name) := by
  obtain ⟨c, hc, hty⟩ := Option.bind_eq_some_iff.1 h
  have hname := (ofBuilders_statements calls).2 i c hc ty hty
  obtain ⟨st, hst, hst_name⟩ := Option.map_eq_some_iff.1 hname
  exact ⟨st, hst, hst_name⟩

theorem mem_declaredStems {calls : List Builder} {i : Nat} {ty : TypeName}
    (h : (calls[i]?).bind Builder.declaredType? = some ty) : nameStem ty ∈ declaredStems calls := by
  obtain ⟨c, hc, hty⟩ := Option.bind_eq_some_iff.1 h
  exact List.mem_map_of_mem (List.mem_filterMap.2 ⟨c, List.mem_of_getElem? hc, hty⟩)

/-- **Fresh names.** For every sequence of builder calls on the empty test case (declaring calls
with any types, and assignments in between), two declaring statements get different names,
provided no stem of a declared type is another declared stem followed by digits. -/
theorem ofBuilders_names_distinct (calls : List Builder)
    (hstems : ∀ a ∈ declaredStems calls, ∀ b ∈ declaredStems calls, isNumbered a b = false)
    {i j : Nat} (hij : i < j) {tyi tyj : TypeName}
    (hi : (calls[i]?).bind Builder.declaredType? = some tyi)
    (hj : (calls[j]?).bind Builder.declaredType? = some tyj) :
    ((ofBuilders calls).statements[i]?).map (·.name) ≠
      ((ofBuilders calls).statements[j]?).map (·.name) := by
  obtain ⟨sti, hsti, hnamei⟩ := name_ofBuilders hi
  obtain ⟨stj, hstj, hnamej⟩ := name_ofBuilders hj
  rw [hsti, hstj, Option.map_some, Option.map_some, ne_eq, Option.some.injEq, hnamei, hnamej]
  apply stem_append_toString_ne
  by_cases hstem : nameStem tyi = nameStem tyj
  · -- one stem: statement `i` is numbered by it, so the count at `j` is larger
    refine .inl ⟨hstem, Nat.ne_of_lt ?_⟩
    have hi' : i < (ofBuilders calls).statements.length := (List.getElem?_eq_some_iff.1 hsti).1
    have hget : (ofBuilders calls).statements[i] = sti := (List.getElem?_eq_some_iff.1 hsti).2
    rw [← hstem]
    refine countP_take_lt hij hi' ?_
    rw [hget, hnamei]
    exact isNumbered_append_toString _ _
  · -- two stems, neither the other followed by digits
    exact .inr ⟨hstem, hstems _ (mem_declaredStems hi) _ (mem_declaredStems hj),
      hstems _ (mem_declaredStems hj) _ (mem_declaredStems hi)⟩

/-- A constructor of `Foo`, an int, an int array and another int: the two ints are named apart. -/
theorem foo_ints_array_names_distinct :
    let calls := [Builder.constructor ⟨"com.example.Foo"⟩ "()V" [], .primitive (.int 5),
      .array ⟨"int[]"⟩ [2], .primitive (.int 1)]
    (∀ a ∈ declaredStems calls, ∀ b ∈ declaredStems calls, isNumbered a b = false) ∧
      ((ofBuilders calls).statements[1]?).map (·.name) ≠
        ((ofBuilders calls).statements[3]?).map (·.name) := by
  intro calls
  have hstems : ∀ a ∈ declaredStems calls, ∀ b ∈ declaredStems calls, isNumbered a b = false := by
    decide +kernel
  exact ⟨hstems, ofBuilders_names_distinct calls hstems (by decide) rfl rfl⟩

/-- A variable of type `int1` is named `int10`, and the tenth `int` variable after it is named
`int10` as well. -/
theorem int1_then_ten_ints_share_name :
    let calls := Builder.null ⟨"int1"⟩ :: List.replicate 10 (Builder.primitive (.int 0))
    (calls[0]?.bind Builder.declaredType?).isSome ∧ (calls[10]?.bind Builder.declaredType?).isSome ∧
      ((ofBuilders calls).statements[0]?).map (·.name) = some "int10" ∧
      ((ofBuilders calls).statements[10]?).map (·.name) = some "int10" := by
  decide +kernel

end TestCase

end BranchSensitivity

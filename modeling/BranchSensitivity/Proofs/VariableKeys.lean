import BranchSensitivity.Dependency.RootVariable

/-!
# Keys of root variables name one location

The key of a root variable is the flat text `kind|Class.method:offset OPCODE`, its kind written
`const`, `param<index>`, `field <owner>.<name>`, `static <owner>.<name>` or `local <name>`. The
key reads back into its parts when the names keep out of the separators' way: field and local
names and the method name hold no `.`, `|` or `:`, and class and owner names no `|`. Then

    a.key = b.key → a.kind = b.kind ∧ a.instruction and b.instruction agree on class, method,
                    offset and opcode

so the graph-to-code map and the walk's deduplication, which go by key, never take two locations
for one; two variables of one key differ at most in their instruction's operand and their children.

The reading back splits at separators: the first `|` ends the kind, which holds none; the last
`.` ends the class, since neither the method, the decimal offset nor a mnemonic holds one; the
first `:` then ends the method and the first blank the offset. A kind's first letter tells its
form, an owner ends at its text's last `.`, decimal texts read back (`toDigits_inj`), and so do
mnemonics (`Opcode.ofMnemonic?_mnemonic`), `IF` and `IF_CMP` alike, since the mnemonic is the whole
rest of the key.
-/

namespace BranchSensitivity

/-! ## Splitting at a separator -/

section Separator

variable {x : Char} {a b c d : List Char}

/-- A separator that neither left part holds ends both at the same place. -/
theorem append_sep_inj_left (ha : x ∉ a) (hc : x ∉ c) (h : a ++ x :: b = c ++ x :: d) :
    a = c ∧ b = d := by
  induction a generalizing c with
  | nil =>
    cases c with
    | nil => exact ⟨rfl, (List.cons.inj h).2⟩
    | cons y c =>
      -- `x` would open `c`, which does not hold it
      exact absurd (List.cons.inj h).1 (fun hxy => hc (hxy ▸ List.mem_cons_self))
  | cons y a ih =>
    cases c with
    | nil => exact absurd (List.cons.inj h).1.symm (fun hxy => ha (hxy ▸ List.mem_cons_self))
    | cons z c =>
      obtain ⟨hyz, h⟩ := List.cons.inj h
      obtain ⟨hac, hbd⟩ := ih (fun hx => ha (List.mem_cons_of_mem y hx))
        (fun hx => hc (List.mem_cons_of_mem z hx)) h
      exact ⟨hyz ▸ hac ▸ rfl, hbd⟩

/-- A separator that neither right part holds starts both at the same place. -/
theorem append_sep_inj_right (hb : x ∉ b) (hd : x ∉ d) (h : a ++ x :: b = c ++ x :: d) :
    a = c ∧ b = d := by
  have hrev : b.reverse ++ x :: a.reverse = d.reverse ++ x :: c.reverse := by
    simpa using congrArg List.reverse h
  obtain ⟨hbd, hac⟩ := append_sep_inj_left (by simpa using hb) (by simpa using hd) hrev
  exact ⟨List.reverse_inj.1 hac, List.reverse_inj.1 hbd⟩

end Separator

/-! ## Decimal texts -/

/-- A decimal text holds digits only. -/
theorem not_mem_toDigits {c : Char} (hc : c.isDigit = false) (n : Nat) :
    c ∉ Nat.toDigits 10 n := by
  intro hmem
  rw [Nat.isDigit_of_mem_toDigits (by decide) (by decide) hmem] at hc
  cases hc

/-- A decimal text reads back into its number. -/
theorem toDigits_inj {m n : Nat} (h : Nat.toDigits 10 m = Nat.toDigits 10 n) : m = n :=
  calc m = Nat.ofDigitChars 10 (Nat.toDigits 10 m) 0 := Nat.ofDigitChars_ten_toDigits.symm
    _ = Nat.ofDigitChars 10 (Nat.toDigits 10 n) 0 := by rw [h]
    _ = n := Nat.ofDigitChars_ten_toDigits

/-! ## Mnemonics read back -/

namespace Opcode

/-- The opcode of a mnemonic. -/
def ofMnemonic? (s : String) : Option Opcode := all.find? (·.mnemonic == s)

theorem ofMnemonic?_mnemonic (o : Opcode) : ofMnemonic? o.mnemonic = some o := by
  cases o <;> decide +kernel

theorem mnemonic_injective {o o' : Opcode} (h : o.mnemonic = o'.mnemonic) : o = o' := by
  have hback := ofMnemonic?_mnemonic o
  rw [h, ofMnemonic?_mnemonic] at hback
  exact (Option.some.inj hback).symm

theorem dot_not_mem_mnemonic (o : Opcode) : '.' ∉ o.mnemonic.toList := by
  cases o <;> simp [mnemonic]

end Opcode

/-! ## Names clear of the separators -/

/-- A name that holds none of the key's separators `.`, `|` and `:`. -/
def PlainName (s : String) : Prop := '.' ∉ s.toList ∧ '|' ∉ s.toList ∧ ':' ∉ s.toList

instance : DecidablePred PlainName := fun _ => inferInstanceAs (Decidable (_ ∧ _ ∧ _))

namespace VariableKind

/-- The names of a kind keep out of the separators: a field's name is plain and its owner holds no
`|`, a local's name is plain. -/
def Separated : VariableKind → Prop
  | .constant | .parameter _ => True
  | .instanceField owner name | .staticField owner name => '|' ∉ owner.name.toList ∧ PlainName name
  | .local name => PlainName name

instance : DecidablePred Separated := fun k =>
  match k with
  | .constant | .parameter _ => inferInstanceAs (Decidable True)
  | .instanceField _ name | .staticField _ name => inferInstanceAs (Decidable (_ ∧ PlainName name))
  | .local name => inferInstanceAs (Decidable (PlainName name))

theorem bar_not_mem_text {k : VariableKind} (hk : k.Separated) : '|' ∉ k.text.toList := by
  cases k with
  | constant => simp [text]
  | parameter i => simpa [text] using not_mem_toDigits (c := '|') (by decide) i
  | instanceField owner name => simp_all [text, Separated, PlainName]
  | staticField owner name => simp_all [text, Separated, PlainName]
  | «local» name => simp_all [text, Separated, PlainName]

/-- An owner and a name without a dot read back from `owner.name`. -/
theorem owner_name_inj {o o' : TypeName} {n n' : String} (hn : '.' ∉ n.toList)
    (hn' : '.' ∉ n'.toList) (h : o.name ++ "." ++ n = o'.name ++ "." ++ n') : o = o' ∧ n = n' := by
  have hl := congrArg String.toList h
  simp only [String.toList_append, List.append_assoc] at hl
  obtain ⟨ho, hn⟩ := append_sep_inj_right hn hn' (by simpa using hl)
  refine ⟨?_, String.toList_inj.1 hn⟩
  cases o
  cases o'
  exact congrArg TypeName.mk (String.toList_inj.1 ho)

/-- The letter that opens the text of a kind, one for each form. -/
def letter : VariableKind → Char
  | .constant => 'c'
  | .parameter _ => 'p'
  | .instanceField .. => 'f'
  | .staticField .. => 's'
  | .local _ => 'l'

theorem head?_text (k : VariableKind) : k.text.toList.head? = some k.letter := by
  cases k <;> simp [text, letter]

/-- The text of a kind reads back into the kind. -/
theorem text_inj {k k' : VariableKind} (hk : k.Separated) (hk' : k'.Separated)
    (h : k.text = k'.text) : k = k' := by
  -- two forms differ in their first letter; one form reads back field by field
  have hletter : k.letter = k'.letter := Option.some.inj (by rw [← head?_text, ← head?_text, h])
  cases k <;> cases k' <;> simp only [letter, Char.reduceEq] at hletter <;> simp only [text] at h
  case constant.constant => rfl
  case parameter.parameter i j =>
    exact congrArg parameter
      (toDigits_inj (by simpa using congrArg String.toList ((String.append_right_inj _).1 h)))
  case instanceField.instanceField o n o' n' =>
    obtain ⟨ho, hn⟩ := owner_name_inj hk.2.1 hk'.2.1
      ((String.append_right_inj "field ").1 (by simpa only [String.append_assoc] using h))
    rw [ho, hn]
  case staticField.staticField o n o' n' =>
    obtain ⟨ho, hn⟩ := owner_name_inj hk.2.1 hk'.2.1
      ((String.append_right_inj "static ").1 (by simpa only [String.append_assoc] using h))
    rw [ho, hn]
  case «local».«local» n n' => exact congrArg «local» ((String.append_right_inj _).1 h)

end VariableKind

namespace Instruction

/-- The class and method names of an instruction keep out of the separators: the class holds no
`|` and the method is plain. -/
def Separated (i : Instruction) : Prop := '|' ∉ i.className.toList ∧ PlainName i.methodName

instance : DecidablePred Separated := fun _ => inferInstanceAs (Decidable (_ ∧ _))

/-- The identity text reads back into the class, the method, the offset and the opcode. -/
theorem id_inj {i j : Instruction} (hi : i.Separated) (hj : j.Separated) (h : i.id = j.id) :
    i.className = j.className ∧ i.methodName = j.methodName ∧ i.offset = j.offset ∧
      i.opcode = j.opcode := by
  have hl := congrArg String.toList h
  simp only [id, String.toList_append, List.append_assoc, Nat.toString_eq_repr, Nat.toList_repr,
    show ".".toList = ['.'] by rfl, show ":".toList = [':'] by rfl,
    show " ".toList = [' '] by rfl, List.singleton_append] at hl
  -- the class ends at the last dot: the method, the offset and the mnemonic hold none
  have hdot : ∀ k : Instruction, k.Separated → '.' ∉
      k.methodName.toList ++ ':' :: (Nat.toDigits 10 k.offset ++ ' ' :: k.opcode.mnemonic.toList) := by
    intro k hk
    simp only [List.mem_append, List.mem_cons, not_or]
    exact ⟨hk.2.1, by decide, not_mem_toDigits (c := '.') (by decide) _, by decide,
      k.opcode.dot_not_mem_mnemonic⟩
  obtain ⟨hclass, hl⟩ := append_sep_inj_right (hdot i hi) (hdot j hj) hl
  -- the method ends at the first colon, the offset at the first blank
  obtain ⟨hmethod, hl⟩ := append_sep_inj_left hi.2.2.2 hj.2.2.2 hl
  obtain ⟨hoffset, hmnemonic⟩ := append_sep_inj_left
    (not_mem_toDigits (c := ' ') (by decide) _) (not_mem_toDigits (c := ' ') (by decide) _) hl
  exact ⟨String.toList_inj.1 hclass, String.toList_inj.1 hmethod, toDigits_inj hoffset,
    Opcode.mnemonic_injective (String.toList_inj.1 hmnemonic)⟩

/-- A dot in a method name lets two places share an identity. -/
example : (⟨"a.b", "c", 0, .ireturn, none⟩ : Instruction).id = (⟨"a", "b.c", 0, .ireturn, none⟩ :
    Instruction).id := by decide +kernel

end Instruction

namespace RootVariable

/-- The names in a root variable's key keep out of the separators. -/
def Separated (r : RootVariable) : Prop := r.kind.Separated ∧ r.instruction.Separated

instance : DecidablePred Separated := fun _ => inferInstanceAs (Decidable (_ ∧ _))

/-- **Keys are injective on separated names.** Two root variables with names clear of the
separators and one key have one kind and instructions at one place with one opcode. -/
theorem key_injective {a b : RootVariable} (ha : a.Separated) (hb : b.Separated)
    (h : a.key = b.key) :
    a.kind = b.kind ∧ a.instruction.className = b.instruction.className ∧
      a.instruction.methodName = b.instruction.methodName ∧
      a.instruction.offset = b.instruction.offset ∧ a.instruction.opcode = b.instruction.opcode := by
  have hl := congrArg String.toList h
  simp only [key, String.toList_append, List.append_assoc, show "|".toList = ['|'] by rfl,
    List.singleton_append] at hl
  -- the kind ends at the first bar
  obtain ⟨hkind, hid⟩ := append_sep_inj_left (VariableKind.bar_not_mem_text ha.1)
    (VariableKind.bar_not_mem_text hb.1) hl
  exact ⟨VariableKind.text_inj ha.1 hb.1 (String.toList_inj.1 hkind),
    Instruction.id_inj ha.2 hb.2 (String.toList_inj.1 hid)⟩

/-- A field read with its operand and one without it, fed by a parameter: one key, one location. -/
theorem field_reads_share_key :
    let ins : Instruction := ⟨"com.example.Foo", "targetM(I)V", 1, .getField, none⟩
    let a := RootVariable.mk (.instanceField ⟨"com.example.Foo"⟩ "count")
      { ins with operand := some (.field "com/example/Foo" "count") } []
    let b := RootVariable.mk (.instanceField ⟨"com.example.Foo"⟩ "count") ins
      [.mk (.parameter 1) { ins with offset := 0, opcode := .iload } []]
    a.Separated ∧ b.Separated ∧ a.key = b.key ∧
      a.kind = b.kind ∧ a.instruction.className = b.instruction.className ∧
      a.instruction.methodName = b.instruction.methodName ∧
      a.instruction.offset = b.instruction.offset ∧ a.instruction.opcode = b.instruction.opcode := by
  intro ins a b
  have ha : a.Separated := by decide +kernel
  have hb : b.Separated := by decide +kernel
  have hkey : a.key = b.key := by decide +kernel
  exact ⟨ha, hb, hkey, key_injective ha hb hkey⟩

end RootVariable

end BranchSensitivity

import BranchSensitivity.Seed
import BranchSensitivity.Proofs.Consistency
import BranchSensitivity.Proofs.InputSources

/-!
# What the seed builder returns

A build is given the wall clock's readings still to come, any list of them: a run that ends
reads the clock a finite number of times, and running out of readings stands for a budget that is
spent. Over every factory, every list of readings and every random source:

* an error is always the time-out for the builder's budget (`build_error`);
* a seed is what one attempt accepted (`build_ok`): a test the factory inserted into an
  empty test case at position zero, reported at some position and not empty; unless null inputs
  are allowed, the same test after every null of it was replaced, with none left
  (`attempt_eq_some`, `replaceNulls_no_null`); and, for a target, one whose last statement calls
  the target.

A seed is not empty as long as replacing a null keeps the number of statements, which is what
the factory contract asks (the null is replaced in place). A factory that breaks it can empty the
test after the check for emptiness, and the build then accepts the empty test
(`null_replacement_can_empty_the_seed`).

For the template factory all of this is concrete: a seed is a copy of one of its non-empty
templates, with each int, long and short primitive given a fresh value of its kind from
`-100..=100` when primitives are randomized, and each null replaced in place by a statement of
the same name and type that is not null and refers to nothing, so a consistent template gives a
consistent seed (`TemplateFactory.seed_of_template`). The changes in place are stated position by
position (`TestCase.Pointwise`), one step of the randomizing loop changing one position
(`TestCase.ChangedAt`).
-/

namespace BranchSensitivity

open BranchSensitivity.Random

/-! ## The builder over any factory -/

/-- Replacing a null keeps the number of statements, as a replacement in place does. -/
def FactoryOps.KeepsLength {φ : Type} (F : FactoryOps φ) : Prop :=
  ∀ (f : φ) (t : TestCase) (p : Nat) (s : Rng), (F.changeNull f t p s).1.2.1.len = t.len

/-- A test passes the check for a target exactly when its last statement calls the target. -/
theorem TestCase.callsTarget_some (t : TestCase) (sig : String) :
    t.callsTarget (some sig) = true ↔ t.lastMethodCall?.map (·.signature) = some sig := by
  unfold TestCase.callsTarget
  cases t.lastMethodCall? <;> simp

namespace SeedBuilder

section Factory

variable {φ : Type} (F : FactoryOps φ)

/-- Whatever one replacement keeps of the factory state and the test, replacing the nulls at a
list of positions keeps. -/
theorem replaceNullsAt_inv (Inv : φ → TestCase → Prop)
    (hstep : ∀ f t p s, Inv f t → Inv (F.changeNull f t p s).1.2.2 (F.changeNull f t p s).1.2.1)
    (ps : List Nat) :
    ∀ (f : φ) (t : TestCase) (s : Rng), Inv f t →
      Inv (replaceNullsAt F f t ps s).1.2.2 (replaceNullsAt F f t ps s).1.2.1 := by
  induction ps with
  | nil => intro f t s h; exact h
  | cons p ps ih =>
    intro f t s h
    have hp := hstep f t p s h
    simp only [replaceNullsAt, bind, StateT.bind]
    rcases hc : F.changeNull f t p s with ⟨⟨ok, t', f'⟩, s'⟩
    rw [hc] at hp
    cases ok
    · exact hp
    · exact ih f' t' s' hp

theorem replaceNulls_inv (Inv : φ → TestCase → Prop)
    (hstep : ∀ f t p s, Inv f t → Inv (F.changeNull f t p s).1.2.2 (F.changeNull f t p s).1.2.1)
    (f : φ) (t : TestCase) (s : Rng) (h : Inv f t) :
    Inv (replaceNulls F f t s).1.2.2 (replaceNulls F f t s).1.2.1 := by
  have hrun := replaceNullsAt_inv F Inv hstep ((t.statements.zipIdx.filter (·.1.isNull)).map (·.2))
    f t s h
  simp only [replaceNulls, bind, StateT.bind]
  exact hrun

/-- A factory that replaces nulls in place keeps the number of statements through all the
replacements. -/
theorem replaceNulls_len (hF : F.KeepsLength) (f : φ) (t : TestCase) (s : Rng) :
    (replaceNulls F f t s).1.2.1.len = t.len :=
  replaceNulls_inv F (fun _ t' => t'.len = t.len) (fun f t' p s h => (hF f t' p s).trans h) f t s rfl

/-- A successful replacement leaves no null: the test is scanned once more at the end. -/
theorem replaceNulls_no_null {f f' : φ} {t t' : TestCase} {s s' : Rng}
    (h : replaceNulls F f t s = ((true, t', f'), s')) : ∀ st ∈ t'.statements, st.isNull = false := by
  simp only [replaceNulls, bind, StateT.bind] at h
  rcases hr : replaceNullsAt F f t ((t.statements.zipIdx.filter (·.1.isNull)).map (·.2)) s with
    ⟨⟨ok, t₁, f₁⟩, s₁⟩
  rw [hr] at h
  have hok : (ok && !t₁.statements.any (·.isNull)) = true := congrArg (·.1.1) h
  have ht : t₁ = t' := congrArg (·.1.2.1) h
  subst ht
  simp only [Bool.and_eq_true, Bool.not_eq_true', List.any_eq_false] at hok
  intro st hst
  simpa using hok.2 st hst

/-- An attempt that gives a test got it from an insertion into an empty test case that reported a
position and left the test non-empty; kept it as it was when nulls are allowed, or else replaced
its nulls successfully; and, for a target, checked that its last statement calls the target. -/
theorem attempt_eq_some {b : SeedBuilder} {target : Option String} {f f' : φ} {s s' : Rng}
    {t : TestCase} (h : b.attempt F target f s = ((some t, f'), s')) :
    ∃ pos t₀ f₁ s₁, F.insert f {} 0 s = ((some pos, t₀, f₁), s₁) ∧ t₀.statements ≠ [] ∧
      (b.allowNullInputs = true → t = t₀) ∧
      (b.allowNullInputs = false → replaceNulls F f₁ t₀ s₁ = ((true, t, f'), s')) ∧
      t.callsTarget target = true := by
  simp only [attempt, bind, StateT.bind] at h
  rcases hi : F.insert f {} 0 s with ⟨⟨pos, t₀, f₁⟩, s₁⟩
  rw [hi] at h
  dsimp only at h
  -- an insertion that reported no position or left the test empty ends the attempt
  by_cases hbad : (pos.isNone || t₀.isEmpty) = true
  · rw [if_pos hbad] at h
    exact absurd (congrArg (·.1.1) h) (by simp [pure, StateT.pure])
  rw [if_neg hbad] at h
  simp only [Bool.or_eq_true, not_or, Option.isNone_iff_eq_none, TestCase.isEmpty,
    List.isEmpty_iff] at hbad
  obtain ⟨p, rfl⟩ := Option.ne_none_iff_exists'.1 hbad.1
  refine ⟨p, t₀, f₁, s₁, rfl, hbad.2, ?_⟩
  -- what is left after the nulls are dealt with is kept when it passes the target check
  have hkeep : ∀ (ok : Bool) (t₂ : TestCase) (f₂ : φ) (s₂ : Rng),
      (pure (if (ok && t₂.callsTarget target) = true then some t₂ else none, f₂) : Draw _) s₂ =
        ((some t, f'), s') → ok = true ∧ t₂ = t ∧ f₂ = f' ∧ s₂ = s' ∧ t.callsTarget target = true := by
    intro ok t₂ f₂ s₂ hp
    have hx : (if (ok && t₂.callsTarget target) = true then some t₂ else none) = some t :=
      congrArg (·.1.1) hp
    rw [Option.ite_none_right_eq_some, Bool.and_eq_true] at hx
    obtain ⟨⟨hok, hcalls⟩, heq⟩ := hx
    cases Option.some.inj heq
    exact ⟨hok, rfl, congrArg (·.1.2) hp, congrArg (·.2) hp, hcalls⟩
  cases hallow : b.allowNullInputs
  · simp only [hallow, Bool.false_eq_true, if_false, StateT.bind] at h
    rcases hr : replaceNulls F f₁ t₀ s₁ with ⟨⟨ok, t₂, f₂⟩, s₂⟩
    rw [hr] at h
    obtain ⟨rfl, rfl, rfl, rfl, hcalls⟩ := hkeep ok t₂ f₂ s₂ h
    exact ⟨by simp, fun _ => rfl, hcalls⟩
  · rw [hallow, if_pos rfl] at h
    obtain ⟨-, rfl, -, -, hcalls⟩ := hkeep true t₀ f₁ s₁ h
    exact ⟨fun _ => rfl, by simp, hcalls⟩

/-- Whatever both operations of the factory keep of its state, an attempt keeps. -/
theorem attempt_inv (Q : φ → Prop) (hins : ∀ f t p s, Q f → Q (F.insert f t p s).1.2.2)
    (hchg : ∀ f t p s, Q f → Q (F.changeNull f t p s).1.2.2) (b : SeedBuilder)
    (target : Option String) (f : φ) (s : Rng) (hf : Q f) : Q (b.attempt F target f s).1.2 := by
  have h₁ := hins f {} 0 s hf
  simp only [attempt, bind, StateT.bind]
  rcases hi : F.insert f {} 0 s with ⟨⟨pos, t₀, f₁⟩, s₁⟩
  rw [hi] at h₁
  dsimp only
  split
  · exact h₁
  · split
    · exact h₁
    · exact replaceNulls_inv F (fun f _ => Q f) (fun f t p s => hchg f t p s) f₁ t₀ s₁ h₁

variable (b : SeedBuilder) (target : Option String) (start : Nat)

theorem buildUntil_nil (f : φ) (s : Rng) :
    b.buildUntil F target start [] f s = ((.error (.seedTimeout b.budgetMs), f, []), s) := rfl

theorem buildUntil_spent {now : Nat} (h : b.budgetMs ≤ now - start) (later : List Nat) (f : φ)
    (s : Rng) :
    b.buildUntil F target start (now :: later) f s =
      ((.error (.seedTimeout b.budgetMs), f, later), s) := by
  rw [buildUntil, if_pos h]
  rfl

/-- Within the budget, an attempt that gives a test ends the run with it. -/
theorem buildUntil_accept {now : Nat} (h : now - start < b.budgetMs) (later : List Nat)
    {f f' : φ} {s s' : Rng} {t : TestCase} (ha : b.attempt F target f s = ((some t, f'), s')) :
    b.buildUntil F target start (now :: later) f s = ((.ok t, f', later), s') := by
  rw [buildUntil, if_neg (by omega)]
  simp only [bind, StateT.bind, ha]
  rfl

/-- Within the budget, an attempt that gives nothing is followed by the rest of the run. -/
theorem buildUntil_retry {now : Nat} (h : now - start < b.budgetMs) (later : List Nat)
    {f f' : φ} {s s' : Rng} (ha : b.attempt F target f s = ((none, f'), s')) :
    b.buildUntil F target start (now :: later) f s = b.buildUntil F target start later f' s' := by
  rw [buildUntil, if_neg (by omega)]
  simp only [bind, StateT.bind, ha]

/-- The builder fails only by running out of time, and then with its own budget. -/
theorem buildUntil_error (clock : List Nat) :
    ∀ (f : φ) (s : Rng) (e : AnalysisError),
      (b.buildUntil F target start clock f s).1.1 = .error e → e = .seedTimeout b.budgetMs := by
  induction clock with
  | nil =>
    intro f s e h
    rw [buildUntil_nil] at h
    cases h
    rfl
  | cons now later ih =>
    intro f s e h
    by_cases hb : b.budgetMs ≤ now - start
    · rw [buildUntil_spent F b target start hb] at h
      cases h
      rfl
    rcases ha : b.attempt F target f s with ⟨⟨_ | t, f'⟩, s'⟩
    · rw [buildUntil_retry F b target start (by omega) later ha] at h
      exact ih f' s' e h
    · rw [buildUntil_accept F b target start (by omega) later ha] at h
      cases h

/-- A seed is what an attempt gave, from a factory state that keeps whatever the factory's
operations keep. -/
theorem buildUntil_ok (Q : φ → Prop) (hins : ∀ f t p s, Q f → Q (F.insert f t p s).1.2.2)
    (hchg : ∀ f t p s, Q f → Q (F.changeNull f t p s).1.2.2) (clock : List Nat) :
    ∀ (f : φ) (s : Rng) (t : TestCase), Q f → (b.buildUntil F target start clock f s).1.1 = .ok t →
      ∃ f₀ s₀ f' s', Q f₀ ∧ b.attempt F target f₀ s₀ = ((some t, f'), s') := by
  induction clock with
  | nil =>
    intro f s t _ h
    rw [buildUntil_nil] at h
    cases h
  | cons now later ih =>
    intro f s t hf h
    by_cases hb : b.budgetMs ≤ now - start
    · rw [buildUntil_spent F b target start hb] at h
      cases h
    have hkept := attempt_inv F Q hins hchg b target f s hf
    rcases ha : b.attempt F target f s with ⟨⟨_ | t', f'⟩, s'⟩
    · rw [ha] at hkept
      rw [buildUntil_retry F b target start (by omega) later ha] at h
      exact ih f' s' t hkept h
    · rw [buildUntil_accept F b target start (by omega) later ha] at h
      cases h
      exact ⟨f, s, f', s', hf, ha⟩

/-- A build fails only with the time-out of its budget. -/
theorem build_error (clock : List Nat) (f : φ) (s : Rng) (e : AnalysisError)
    (h : (b.build F target clock f s).1.1 = .error e) : e = .seedTimeout b.budgetMs := by
  cases clock with
  | nil =>
    cases h
    rfl
  | cons start clock => exact buildUntil_error F b target start clock f s e h

/-- A seed of a build is what an attempt gave, from a factory state that keeps whatever the
factory's operations keep. -/
theorem build_ok (Q : φ → Prop) (hins : ∀ f t p s, Q f → Q (F.insert f t p s).1.2.2)
    (hchg : ∀ f t p s, Q f → Q (F.changeNull f t p s).1.2.2) (clock : List Nat) (f : φ) (s : Rng)
    (t : TestCase) (hf : Q f) (h : (b.build F target clock f s).1.1 = .ok t) :
    ∃ f₀ s₀ f' s', Q f₀ ∧ b.attempt F target f₀ s₀ = ((some t, f'), s') := by
  cases clock with
  | nil => cases h
  | cons start clock => exact buildUntil_ok F b target start Q hins hchg clock f s t hf h

end Factory

end SeedBuilder

/-! ## Changing a test in place -/

namespace TestCase

/-- `t'` is `t` changed in place, statement by statement: as long, with each statement related
by `R` to the one it stands in place of. -/
def Pointwise (R : Statement → Statement → Prop) (t t' : TestCase) : Prop :=
  t'.len = t.len ∧ ∀ (i : Nat) (st st' : Statement), t.statements[i]? = some st →
    t'.statements[i]? = some st' → R st st'

section Pointwise

variable {R : Statement → Statement → Prop}

/-- A statement at a position of `t` has one at the same position of a test as long. -/
theorem exists_getElem?_of_len_eq {t t' : TestCase} (hlen : t'.len = t.len) {i : Nat}
    {st : Statement} (h : t.statements[i]? = some st) : ∃ st', t'.statements[i]? = some st' := by
  have hi : i < t'.statements.length := by
    have := (List.getElem?_eq_some_iff.1 h).1
    simp only [len] at hlen
    omega
  exact ⟨_, List.getElem?_eq_getElem hi⟩

theorem Pointwise.refl (hR : ∀ st, R st st) (t : TestCase) : Pointwise R t t := by
  refine ⟨rfl, fun i st st' h h' => ?_⟩
  rw [h] at h'
  cases h'
  exact hR st

theorem Pointwise.trans (hR : ∀ a b c, R a b → R b c → R a c) {t₁ t₂ t₃ : TestCase}
    (h₁ : Pointwise R t₁ t₂) (h₂ : Pointwise R t₂ t₃) : Pointwise R t₁ t₃ := by
  refine ⟨h₂.1.trans h₁.1, fun i a c ha hc => ?_⟩
  obtain ⟨b, hb⟩ := exists_getElem?_of_len_eq h₁.1 ha
  exact hR a b c (h₁.2 i a b ha hb) (h₂.2 i b c hb hc)

theorem Pointwise.imp {S : Statement → Statement → Prop} {t t' : TestCase} (h : Pointwise R t t')
    (hRS : ∀ st st', st' ∈ t'.statements → R st st' → S st st') : Pointwise S t t' :=
  ⟨h.1, fun i st st' hst hst' => hRS st st' (List.mem_of_getElem? hst') (h.2 i st st' hst hst')⟩

/-- `t'` is `t` with only the statement at `p` changed, by `R`. -/
def ChangedAt (R : Statement → Statement → Prop) (p : Nat) (t t' : TestCase) : Prop :=
  t'.len = t.len ∧ (∀ i, i ≠ p → t'.statements[i]? = t.statements[i]?) ∧
    ∀ st st', t.statements[p]? = some st → t'.statements[p]? = some st' → R st st'

/-- Keeping a test changes it at `p` when `R` relates the statement there to itself. -/
theorem changedAt_self {p : Nat} {t : TestCase} (h : ∀ st, t.statements[p]? = some st → R st st) :
    ChangedAt R p t t := by
  refine ⟨rfl, fun _ _ => rfl, fun st st' hst hst' => ?_⟩
  rw [hst] at hst'
  cases hst'
  exact h st hst

/-- Setting the statement at `p` to one related to what stood there changes the test at `p`. -/
theorem changedAt_set (t : TestCase) (p : Nat) (st' : Statement)
    (h : ∀ st, t.statements[p]? = some st → R st st') : ChangedAt R p t ⟨t.statements.set p st'⟩ := by
  refine ⟨by simp [len], fun i hi => List.getElem?_set_ne (Ne.symm hi), fun st c hst hc => ?_⟩
  have hp : p < t.statements.length := (List.getElem?_eq_some_iff.1 hst).1
  rw [List.getElem?_set_self hp] at hc
  cases hc
  exact h st hst

/-- For a reflexive `R`, a change at one position is a change in place. -/
theorem ChangedAt.pointwise (hR : ∀ st, R st st) {p : Nat} {t t' : TestCase}
    (h : ChangedAt R p t t') : Pointwise R t t' := by
  refine ⟨h.1, fun i st st' hst hst' => ?_⟩
  by_cases hi : i = p
  · subst hi
    exact h.2.2 st st' hst hst'
  · rw [h.2.1 i hi, hst] at hst'
    cases hst'
    exact hR st

/-- A change in place that never adds a reference keeps a test consistent. -/
theorem Consistent.pointwise {t t' : TestCase} (h : t.Consistent) (hp : Pointwise R t t')
    (hR : ∀ st st', R st st' → ∀ r ∈ st'.references, r ∈ st.references) : t'.Consistent := by
  intro i st' hst' r hr
  obtain ⟨st, hst⟩ := exists_getElem?_of_len_eq hp.1.symm hst'
  exact h i st hst r (hR st st' (hp.2 i st st' hst hst') r hr)

end Pointwise

end TestCase

/-! ## The template factory -/

/-- An int, long or short: a value that randomizing redraws. -/
def Value.isRedrawable : Value → Bool
  | .int _ | .long _ | .short _ => true
  | _ => false

/-- `w` is a fresh value of `v`'s kind drawn from `-100..=100`. -/
inductive Value.Redrawn : Value → Value → Prop
  | int (a : Int32) {x : Int} (h : -100 ≤ x ∧ x ≤ 100) : Value.Redrawn (.int a) (.int (Int32.ofInt x))
  | long (a : Int64) {x : Int} (h : -100 ≤ x ∧ x ≤ 100) :
      Value.Redrawn (.long a) (.long (Int64.ofInt x))
  | short (a : Int16) {x : Int} (h : -100 ≤ x ∧ x ≤ 100) :
      Value.Redrawn (.short a) (.short (Int16.ofInt x))

/-- What randomizing does to the statement at a position: an int, long or short primitive gets a
fresh value of its kind, and any other statement is kept. -/
inductive Statement.Randomized : Statement → Statement → Prop
  | redrawn {st : Statement} {v w : Value} (hk : st.kind = .primitive v) (hw : v.Redrawn w) :
      Statement.Randomized st { st with kind := .primitive w }
  | kept {st : Statement} (hk : ∀ v, st.kind = .primitive v → v.isRedrawable = false) :
      Statement.Randomized st st

/-- `st'` can stand in place of the null `st`: it has the same name and type, is not null and
refers to nothing. -/
def Statement.Substitutes (st' st : Statement) : Prop :=
  st'.name = st.name ∧ st'.returnType = st.returnType ∧ st'.isNull = false ∧ st'.references = []

/-- `st'` is `st`, or substitutes for it when `st` is null. -/
def Statement.KeptOrSubstituted (st st' : Statement) : Prop :=
  st' = st ∨ st.isNull = true ∧ st'.Substitutes st

/-- `st'` is what stands in place of `st` once nulls are replaced: a substitute for a null, and
`st` itself for any other statement. -/
def Statement.NullReplaced (st st' : Statement) : Prop :=
  if st.isNull then st'.Substitutes st else st' = st

theorem Statement.Randomized.references_eq {st st' : Statement} (h : st.Randomized st') :
    st'.references = st.references := by
  cases h with
  | redrawn hk _ => simp [Statement.references, hk]
  | kept _ => rfl

theorem Statement.KeptOrSubstituted.trans {a b c : Statement} (hab : a.KeptOrSubstituted b)
    (hbc : b.KeptOrSubstituted c) : a.KeptOrSubstituted c := by
  rcases hbc with rfl | ⟨hb, hsub⟩
  · exact hab
  -- `b` is null, so it was kept: a substitute is not null
  rcases hab with rfl | ⟨-, -, -, hb', -⟩
  · exact Or.inr ⟨hb, hsub⟩
  · rw [hb'] at hb
    cases hb

theorem Statement.NullReplaced.references_sub {st st' : Statement} (h : st.NullReplaced st') :
    ∀ r ∈ st'.references, r ∈ st.references := by
  unfold Statement.NullReplaced at h
  split at h
  · simp [h.2.2.2]
  · rw [h]
    exact fun _ hr => hr

/-- Once no null is left, what was kept or substituted is each null replaced. -/
theorem Statement.KeptOrSubstituted.nullReplaced {st st' : Statement}
    (h : st.KeptOrSubstituted st') (hst' : st'.isNull = false) : st.NullReplaced st' := by
  unfold Statement.NullReplaced
  rcases h with rfl | ⟨hnull, hsub⟩
  · simp [hst']
  · simpa [hnull] using hsub

namespace TemplateFactory

/-- A draw from `-100..=100` at any width a redraw uses lies in it. -/
theorem intInclusive_hundred {w : Width} (hw : w = .w16 ∨ w = .w32 ∨ w = .w64) (s : Rng) :
    -100 ≤ (intInclusive w (-100) 100 s).1 ∧ (intInclusive w (-100) 100 s).1 ≤ 100 :=
  intInclusive_mem w (by decide) (by rcases hw with rfl | rfl | rfl <;> norm_num [Width.bits]) s

/-- A fresh primitive is a redraw of an int, long or short, and there is none for any other
value. -/
theorem freshPrimitive_spec (v : Value) (s : Rng) :
    (∀ w, (freshPrimitive v s).1 = some w → v.Redrawn w) ∧
      ((freshPrimitive v s).1 = none → v.isRedrawable = false) := by
  cases v
  -- an int, long or short gets a value of its kind, from a draw at the kind's width
  case short a =>
    have hx := intInclusive_hundred (Or.inl rfl) s
    simp only [freshPrimitive, bind, StateT.bind, pure, StateT.pure]
    rcases hd : intInclusive .w16 (-100) 100 s with ⟨x, s'⟩
    rw [hd] at hx
    refine ⟨fun w hw => ?_, fun h => by cases h⟩
    cases hw
    exact .short a hx
  case int a =>
    have hx := intInclusive_hundred (Or.inr (Or.inl rfl)) s
    simp only [freshPrimitive, bind, StateT.bind, pure, StateT.pure]
    rcases hd : intInclusive .w32 (-100) 100 s with ⟨x, s'⟩
    rw [hd] at hx
    refine ⟨fun w hw => ?_, fun h => by cases h⟩
    cases hw
    exact .int a hx
  case long a =>
    have hx := intInclusive_hundred (Or.inr (Or.inr rfl)) s
    simp only [freshPrimitive, bind, StateT.bind, pure, StateT.pure]
    rcases hd : intInclusive .w64 (-100) 100 s with ⟨x, s'⟩
    rw [hd] at hx
    refine ⟨fun w hw => ?_, fun h => by cases h⟩
    cases hw
    exact .long a hx
  all_goals simp [freshPrimitive, pure, StateT.pure, Value.isRedrawable]

/-- One position of a randomizing run: the statement there is randomized, and no other
statement changes. -/
theorem randomize_cons (t : TestCase) (p : Nat) (ps : List Nat) (s : Rng) :
    ∃ t₁ s₁, randomize t (p :: ps) s = randomize t₁ ps s₁ ∧
      TestCase.ChangedAt Statement.Randomized p t t₁ := by
  rcases hv : (t.get? p).bind Statement.primitiveValue? with _ | v
  · -- no primitive at `p`: the test is kept
    refine ⟨t, s, by simp only [randomize, hv], TestCase.changedAt_self fun st hst => .kept ?_⟩
    intro v hk
    simp [TestCase.get?, hst, Statement.primitiveValue?_eq_some.2 hk] at hv
  obtain ⟨st, hst, hk⟩ := MethodInputs.bind_primitiveValue?_eq_some.1 hv
  rw [TestCase.get?] at hst
  have hfresh := freshPrimitive_spec v s
  rcases hd : freshPrimitive v s with ⟨_ | w, s₁⟩
  · -- no fresh value for it: the test is kept too
    rw [hd] at hfresh
    refine ⟨t, s₁, by simp only [randomize, hv, bind, StateT.bind, hd],
      TestCase.changedAt_self fun st' hst' => .kept fun v' hk' => ?_⟩
    rw [hst'] at hst
    cases hst
    rw [hk] at hk'
    cases hk'
    exact hfresh.2 rfl
  · rw [hd] at hfresh
    refine ⟨(t.setPrimitive p w).2, s₁, by simp only [randomize, hv, bind, StateT.bind, hd], ?_⟩
    rw [TestCase.setPrimitive_of_get? hst hk]
    refine TestCase.changedAt_set t p _ fun st₀ h₀ => ?_
    rw [hst] at h₀
    cases h₀
    exact .redrawn hk (hfresh.1 w rfl)

/-- Randomizing at distinct positions randomizes each of them in place and keeps every other
statement. -/
theorem randomize_spec (ps : List Nat) (hnd : ps.Nodup) : ∀ (t : TestCase) (s : Rng),
    (randomize t ps s).1.len = t.len ∧
      (∀ i, i ∉ ps → (randomize t ps s).1.statements[i]? = t.statements[i]?) ∧
      ∀ i ∈ ps, ∀ st st', t.statements[i]? = some st →
        (randomize t ps s).1.statements[i]? = some st' → st.Randomized st' := by
  induction ps with
  | nil => intro t s; exact ⟨rfl, fun _ _ => rfl, by simp⟩
  | cons p ps ih =>
    intro t s
    obtain ⟨hp, hnd⟩ := List.nodup_cons.1 hnd
    obtain ⟨t₁, s₁, hrun, hlen, hframe, hat⟩ := randomize_cons t p ps s
    obtain ⟨hlen', hframe', hat'⟩ := ih hnd t₁ s₁
    rw [hrun]
    refine ⟨hlen'.trans hlen, fun i hi => ?_, fun i hi st st' hst hst' => ?_⟩
    · rw [List.mem_cons, not_or] at hi
      rw [hframe' i hi.2, hframe i hi.1]
    · rcases List.mem_cons.1 hi with rfl | hi
      · -- the later positions leave the one just randomized alone
        rw [hframe' i hp] at hst'
        exact hat st st' hst hst'
      · have hne : i ≠ p := fun h => hp (h ▸ hi)
        exact hat' i hi st st' (by rw [hframe i hne]; exact hst) hst'

/-- Randomizing every position of a test randomizes it in place. -/
theorem randomize_range (t : TestCase) (s : Rng) :
    TestCase.Pointwise Statement.Randomized t (randomize t (List.range t.len) s).1 := by
  obtain ⟨hlen, -, hat⟩ := randomize_spec (List.range t.len) List.nodup_range t s
  refine ⟨hlen, fun i st st' hst hst' => hat i ?_ st st' hst hst'⟩
  exact List.mem_range.2 (List.getElem?_eq_some_iff.1 hst).1

/-- The insertions of the template factory keep its templates and whether it randomizes. -/
theorem insert_keeps (f : TemplateFactory) (t : TestCase) (p : Nat) (s : Rng) :
    (insert f t p s).1.2.2.templates = f.templates ∧
      (insert f t p s).1.2.2.randomizePrimitives = f.randomizePrimitives := by
  simp only [insert, bind]
  split
  · exact ⟨rfl, rfl⟩
  · split <;> exact ⟨rfl, rfl⟩

/-- An insertion into the empty test case that reports a position copies one of the templates,
randomized when the factory randomizes primitives. -/
theorem insert_eq_some {f f₁ : TemplateFactory} {s s₁ : Rng} {pos : Nat} {t₀ : TestCase}
    (h : insert f {} 0 s = ((some pos, t₀, f₁), s₁)) :
    ∃ tpl ∈ f.templates,
      (f.randomizePrimitives = true → TestCase.Pointwise Statement.Randomized tpl t₀) ∧
      (f.randomizePrimitives = false → t₀ = tpl) := by
  simp only [insert, bind] at h
  split at h
  next => exact absurd (congrArg (·.1.1) h) (by simp [pure, StateT.pure])
  next hguard =>
    have hpos : 0 < f.templates.length := by
      simp only [Bool.or_eq_true, not_or, List.isEmpty_iff] at hguard
      exact List.length_pos_iff.2 hguard.1.1
    simp only [StateT.bind] at h
    rcases hi : index f.templates.length s with ⟨i, s'⟩
    have hlt := index_lt hpos s
    rw [hi] at hlt h
    dsimp only [bind] at h hlt
    rw [lookup_of_lt hlt] at h
    refine ⟨_, List.getElem_mem hlt, fun hr => ?_, fun hr => ?_⟩
    · rw [if_pos hr] at h
      have ht : (randomize f.templates[i] (List.range f.templates[i].len) s').1 = t₀ :=
        congrArg (·.1.2.1) h
      rw [← ht]
      exact randomize_range _ _
    · rw [if_neg (by simp [hr])] at h
      exact (congrArg (·.1.2.1) h).symm

/-- Replacing a null changes the test in place: a null at the position gets a substitute, and
nothing else changes. -/
theorem changeNull_pointwise (t : TestCase) (p : Nat) (s : Rng) :
    TestCase.Pointwise Statement.KeptOrSubstituted t (changeNull t p s).1.2 := by
  have hrefl : ∀ st, Statement.KeptOrSubstituted st st := fun st => Or.inl rfl
  simp only [changeNull, bind]
  rcases hg : t.get? p with _ | st
  · exact TestCase.Pointwise.refl hrefl t
  · dsimp only
    split
    · exact TestCase.Pointwise.refl hrefl t
    next hnull =>
      have hnull : st.isNull = true := by simpa using hnull
      -- whichever kind is drawn, the new statement takes the old one's name and is a substitute
      have hreplace : ∀ k : StatementKind,
          (∀ n ty, (⟨n, ty, k⟩ : Statement).isNull = false ∧ (⟨n, ty, k⟩ : Statement).references = []) →
          TestCase.Pointwise Statement.KeptOrSubstituted t (t.replace p ⟨"", st.returnType, k⟩).2 := by
        intro k hk
        unfold TestCase.replace
        rw [hg]
        refine (TestCase.changedAt_set t p _ fun st₀ h₀ => ?_).pointwise hrefl
        rw [TestCase.get?] at hg
        rw [hg] at h₀
        cases h₀
        exact Or.inr ⟨hnull, rfl, rfl, (hk _ _).1, (hk _ _).2⟩
      simp only [StateT.bind]
      rcases defaultValue st.returnType s with ⟨_ | v, s'⟩
      · dsimp only [bind]
        split
        · exact hreplace _ fun _ _ => ⟨rfl, rfl⟩
        · exact hreplace _ fun _ _ => ⟨rfl, rfl⟩
      · exact hreplace _ fun _ _ => ⟨rfl, rfl⟩

theorem ops_changeNull (f : TemplateFactory) (t : TestCase) (p : Nat) (s : Rng) :
    (ops.changeNull f t p s).1.2.2 = f ∧ (ops.changeNull f t p s).1.2.1 = (changeNull t p s).1.2 :=
  ⟨rfl, rfl⟩

/-- The template factory keeps to the contract: a null is replaced in place. -/
theorem ops_keepsLength : ops.KeepsLength := fun f t p s => by
  rw [(ops_changeNull f t p s).2]
  exact (changeNull_pointwise t p s).1

/-- Replacing all nulls through the template factory changes the test in place, each null kept
or substituted. -/
theorem replaceNulls_pointwise (f : TemplateFactory) (t : TestCase) (s : Rng) :
    TestCase.Pointwise Statement.KeptOrSubstituted t (SeedBuilder.replaceNulls ops f t s).1.2.1 := by
  refine SeedBuilder.replaceNulls_inv ops (fun _ t' => TestCase.Pointwise Statement.KeptOrSubstituted t t')
    (fun f₁ t₁ p s₁ h₁ => ?_) f t s (TestCase.Pointwise.refl (fun _ => Or.inl rfl) t)
  rw [(ops_changeNull f₁ t₁ p s₁).2]
  exact h₁.trans (fun _ _ _ hab hbc => hab.trans hbc) (changeNull_pointwise t₁ p s₁)

/-- A successful replacement of all nulls through the template factory replaces each null in
place by a substitute. -/
theorem replaceNulls_eq_true {f f' : TemplateFactory} {t t' : TestCase} {s s' : Rng}
    (h : SeedBuilder.replaceNulls ops f t s = ((true, t', f'), s')) :
    TestCase.Pointwise Statement.NullReplaced t t' := by
  have hpt := replaceNulls_pointwise f t s
  rw [h] at hpt
  exact hpt.imp fun st st' hst' hk => hk.nullReplaced (SeedBuilder.replaceNulls_no_null ops h st' hst')

/-- A copy of a template, randomized or not, is as long as the template and consistent when it
is: randomizing only rewrites primitive values. -/
theorem copy_len_consistent {tpl copy : TestCase} {randomized : Bool}
    (hR : randomized = true → TestCase.Pointwise Statement.Randomized tpl copy)
    (hK : randomized = false → copy = tpl) :
    copy.len = tpl.len ∧ (tpl.Consistent → copy.Consistent) := by
  cases randomized
  · rw [hK rfl]
    exact ⟨rfl, id⟩
  · exact ⟨(hR rfl).1, fun hc => hc.pointwise (hR rfl) fun st st' hst r hr => hst.references_eq ▸ hr⟩

/-- A seed of the template factory, whatever the clock: a copy of one of its non-empty templates,
randomized in place when the factory randomizes primitives; that copy itself when nulls are
allowed, and otherwise the copy with each null replaced in place by a substitute. A consistent
template gives a consistent seed. -/
theorem seed_of_template (b : SeedBuilder) (target : Option String) (clock : List Nat)
    (f : TemplateFactory) (s : Rng) (t : TestCase)
    (h : (b.build ops target clock f s).1.1 = .ok t) :
    ∃ tpl ∈ f.templates, ∃ copy : TestCase, tpl.statements ≠ [] ∧
      (f.randomizePrimitives = true → TestCase.Pointwise Statement.Randomized tpl copy) ∧
      (f.randomizePrimitives = false → copy = tpl) ∧
      (b.allowNullInputs = true → t = copy) ∧
      (b.allowNullInputs = false → TestCase.Pointwise Statement.NullReplaced copy t) ∧
      (tpl.isConsistent = true → t.isConsistent = true) := by
  -- the attempt that gave the seed started from a factory with the same templates and flag
  obtain ⟨f₀, s₀, f', s', ⟨htpl, hrand⟩, ha⟩ := SeedBuilder.build_ok ops b target
    (fun g : TemplateFactory => g.templates = f.templates ∧
      g.randomizePrimitives = f.randomizePrimitives)
    (fun g t p s hg => ⟨(insert_keeps g t p s).1.trans hg.1, (insert_keeps g t p s).2.trans hg.2⟩)
    (fun g t p s hg => (ops_changeNull g t p s).1 ▸ hg) clock f s t ⟨rfl, rfl⟩ h
  obtain ⟨pos, copy, f₁, s₁, hi, hne, hallow, hreplaced, -⟩ := SeedBuilder.attempt_eq_some ops ha
  obtain ⟨tpl, hmem, hR, hK⟩ := insert_eq_some hi
  rw [hrand] at hR hK
  rw [htpl] at hmem
  obtain ⟨hlen, hcons⟩ := copy_len_consistent hR hK
  have hnulls : b.allowNullInputs = false → TestCase.Pointwise Statement.NullReplaced copy t :=
    fun hb => replaceNulls_eq_true (hreplaced hb)
  refine ⟨tpl, hmem, copy, fun hnil => hne ?_, hR, hK, hallow, hnulls, fun hc => ?_⟩
  · simpa [TestCase.len, hnil] using hlen
  · rw [TestCase.isConsistent_iff] at hc ⊢
    cases hb : b.allowNullInputs
    · exact (hcons hc).pointwise (hnulls hb) fun st st' h => h.references_sub
    · rw [hallow hb]
      exact hcons hc

end TemplateFactory

/-- **What the seed builder returns.** Over every factory, every list of clock readings and every
random source, a build fails only with the time-out of its budget. A seed came from an
insertion into the empty test case that reported a position and left the test non-empty: it is
that test when null inputs are allowed, and otherwise that test after a successful replacement of
its nulls, with none left. A seed for a target ends in a call to it, and a seed is not empty when
nulls are allowed or the factory replaces nulls in place. From the template factory, a seed is a
copy of one of its non-empty templates, randomized when primitives are, with each null replaced in
place by a substitute, and a consistent template gives a consistent seed. -/
theorem seed_is_accepted_insertion_or_timeout :
    (∀ (φ : Type) (F : FactoryOps φ) (b : SeedBuilder) (target : Option String)
        (clock : List Nat) (f : φ) (s : Rng) (e : AnalysisError),
        (b.build F target clock f s).1.1 = .error e → e = .seedTimeout b.budgetMs) ∧
    (∀ (φ : Type) (F : FactoryOps φ) (b : SeedBuilder) (target : Option String)
        (clock : List Nat) (f : φ) (s : Rng) (t : TestCase),
        (b.build F target clock f s).1.1 = .ok t →
        (∃ f₀ s₀ pos t₀ f₁ s₁, F.insert f₀ {} 0 s₀ = ((some pos, t₀, f₁), s₁) ∧
          t₀.statements ≠ [] ∧ (b.allowNullInputs = true → t = t₀) ∧
          (b.allowNullInputs = false →
            ∃ f₂ s₂, SeedBuilder.replaceNulls F f₁ t₀ s₁ = ((true, t, f₂), s₂))) ∧
        (b.allowNullInputs = false → ∀ st ∈ t.statements, st.isNull = false) ∧
        (∀ sig, target = some sig → t.lastMethodCall?.map (·.signature) = some sig) ∧
        (b.allowNullInputs = true ∨ F.KeepsLength → t.statements ≠ [])) ∧
    ∀ (b : SeedBuilder) (target : Option String) (clock : List Nat) (f : TemplateFactory)
      (s : Rng) (t : TestCase), (b.build TemplateFactory.ops target clock f s).1.1 = .ok t →
      ∃ tpl ∈ f.templates, ∃ copy : TestCase, tpl.statements ≠ [] ∧
        (f.randomizePrimitives = true → TestCase.Pointwise Statement.Randomized tpl copy) ∧
        (f.randomizePrimitives = false → copy = tpl) ∧
        (b.allowNullInputs = true → t = copy) ∧
        (b.allowNullInputs = false → TestCase.Pointwise Statement.NullReplaced copy t) ∧
        (tpl.isConsistent = true → t.isConsistent = true) := by
  refine ⟨fun _ F b target clock f s e h => SeedBuilder.build_error F b target clock f s e h,
    fun _ F b target clock f s t h => ?_, TemplateFactory.seed_of_template⟩
  obtain ⟨f₀, s₀, f', s', -, ha⟩ := SeedBuilder.build_ok F b target (fun _ => True)
    (fun _ _ _ _ _ => trivial) (fun _ _ _ _ _ => trivial) clock f s t trivial h
  obtain ⟨pos, t₀, f₁, s₁, hi, hne, hallow, hreplaced, hcalls⟩ := SeedBuilder.attempt_eq_some F ha
  refine ⟨⟨f₀, s₀, pos, t₀, f₁, s₁, hi, hne, hallow, fun hb => ⟨f', s', hreplaced hb⟩⟩,
    fun hb => SeedBuilder.replaceNulls_no_null F (hreplaced hb), fun sig hsig => ?_,
    fun hkeeps => ?_⟩
  · rw [← TestCase.callsTarget_some, ← hsig]
    exact hcalls
  · -- the seed is as long as the inserted test
    have hlen : t.len = t₀.len := by
      cases hb : b.allowNullInputs
      · have hlen := SeedBuilder.replaceNulls_len F (hkeeps.resolve_left (by simp [hb])) f₁ t₀ s₁
        rw [hreplaced hb] at hlen
        exact hlen
      · rw [hallow hb]
    intro hnil
    exact hne (List.eq_nil_of_length_eq_zero (by simpa [TestCase.len, hnil] using hlen.symm))

/-- A factory that inserts one null statement, and whose replacement of a null reports success
after emptying the test: the check for emptiness comes before the nulls are replaced, so the
build accepts the empty test. -/
theorem null_replacement_can_empty_the_seed :
    let F : FactoryOps Unit :=
      { insert := fun _ _ _ => pure (some 0, ⟨[⟨"object0", ⟨"java.lang.Object"⟩, .null⟩]⟩, ())
        changeNull := fun _ _ _ => pure (true, {}, ()) }
    ((⟨50, false⟩ : SeedBuilder).build F none [0, 0] () (Rng.ofSeed 0)).1.1 = .ok {} := by
  rfl

end BranchSensitivity

import Mathlib.Data.List.Induction
import BranchSensitivity.Proofs.ObservedSites

/-!
# What a chromosome remembers of the operations on it

The search works on a chromosome by attaching goals, setting and clearing cached values,
replacing or editing the test, and binding a loader; reading a goal or a value changes nothing.
Each operation is described once by what it can do to the entries, the change mark and the
cached values (`goals_apply`, `changed_apply`, `fitnessValue?_apply_eq_some`), and every run from
a new chromosome is then an induction over the operations:

    (run pre (new t)).goals <+: (run (pre ++ post) (new t)).goals
    (run ops (new t)).changed = false ↔ a value was set, and only goals or loaders came after
    (run ops (new t)).fitnessValue? b = some v ↔ `v` was set for `b` after a goal of `b` was
      attached, and neither cleared nor set again since

Goals are compared by their own equality, under which a goal whose instruction holds a NaN
constant is equal to no goal, itself included: attaching such a goal twice gives two entries.
-/

namespace BranchSensitivity

namespace Chromosome

/-- An operation of the search on a chromosome. Reading a goal or a cached value changes
nothing and is not one. -/
inductive Op where
  | addFitness (g : Goal)
  | setFitnessValue (branch : Nat) (v : Float)
  | clearCachedResults
  | setTest (t : TestCase)
  /-- An edit of the test case in place, of any kind. -/
  | editTest (f : TestCase → TestCase)
  | bindLoader (l : LoaderBinding)

/-- Apply an operation. -/
def Op.apply : Op → Chromosome → Chromosome
  | .addFitness g, c => c.addFitness g
  | .setFitnessValue b v, c => c.setFitnessValue b v
  | .clearCachedResults, c => c.clearCachedResults
  | .setTest t, c => c.setTest t
  | .editTest f, c => (c.editTest fun t => ((), f t)).2
  | .bindLoader l, c => c.bindLoader l

/-- Apply operations in order. -/
def run (ops : List Op) (c : Chromosome) : Chromosome := ops.foldl (fun c op => op.apply c) c

/-- The attached goals, in the order of their entries. -/
def goals (c : Chromosome) : List Goal := c.fitness.map (·.goal)

theorem run_append_singleton (ops : List Op) (op : Op) (c : Chromosome) :
    run (ops ++ [op]) c = op.apply (run ops c) := by
  rw [run, List.foldl_append, List.foldl_cons, List.foldl_nil]
  rfl

theorem map_modify_of_comp {α β : Type} (f : α → β) (F : α → α) (hF : ∀ a, f (F a) = f a) :
    ∀ (i : Nat) (l : List α), (l.modify i F).map f = l.map f := by
  intro i l
  induction l generalizing i with
  | nil => simp
  | cons a rest ih =>
    cases i with
    | zero => simp [hF]
    | succ i => simp [ih]

/-- An operation keeps the entries, the goal it attaches being equal to one of them; or it
attaches a goal equal to none of them, after them. -/
theorem goals_apply (op : Op) (c : Chromosome) :
    ((op.apply c).goals = c.goals ∧
        ∀ g, op = .addFitness g → ∃ e ∈ c.fitness, (e.goal == g) = true) ∨
      ∃ g, op = .addFitness g ∧ (∀ e ∈ c.fitness, (e.goal == g) = false) ∧
        (op.apply c).goals = c.goals ++ [g] := by
  cases op with
  | addFitness g =>
    simp only [Op.apply, addFitness]
    split
    · rename_i hany
      refine .inl ⟨rfl, fun g' hg' => ?_⟩
      cases hg'
      exact List.any_eq_true.1 hany
    · rename_i hnew
      refine .inr ⟨g, rfl, fun e he => ?_, by simp [goals]⟩
      simpa using (List.any_eq_false.1 (Bool.not_eq_true _ ▸ hnew)) e he
  | setFitnessValue b v =>
    refine .inl ⟨?_, fun g hg => by cases hg⟩
    simp only [Op.apply, setFitnessValue, goals]
    exact map_modify_of_comp _ (fun e : FitnessEntry => { e with value := some v })
      (fun _ => rfl) _ _
  | clearCachedResults =>
    exact .inl ⟨by simp [Op.apply, clearCachedResults, goals], fun g hg => by cases hg⟩
  | setTest t => exact .inl ⟨rfl, fun g hg => by cases hg⟩
  | editTest f => exact .inl ⟨rfl, fun g hg => by cases hg⟩
  | bindLoader l => exact .inl ⟨rfl, fun g hg => by cases hg⟩

/-- Whether some entry is of a branch, read off the attached goals. -/
theorem find?_isSome_iff (c : Chromosome) (b : Nat) :
    (c.fitness.find? (·.goal.branch.id == b)).isSome ↔ ∃ h ∈ c.goals, h.branch.id = b := by
  simp [List.find?_isSome, goals]

/-- Goals equal by the goals' own equality are of one branch. -/
theorem branch_id_of_beq {g h : Goal} (heq : (g == h) = true) : g.branch.id = h.branch.id := by
  have hb : (g.branch.id == h.branch.id) = true := by
    simp only [BEq.beq, Bool.and_eq_true] at heq
    exact heq.1.1
  simpa using hb

/-- An operation adds an entry of a branch only by attaching a goal of it. -/
theorem branch_mem_goals_apply (op : Op) (c : Chromosome) (b : Nat) :
    (∃ h ∈ (op.apply c).goals, h.branch.id = b) ↔
      (∃ h ∈ c.goals, h.branch.id = b) ∨ ∃ g, op = .addFitness g ∧ g.branch.id = b := by
  rcases goals_apply op c with ⟨hsame, hequal⟩ | ⟨g, rfl, -, hnew⟩
  · rw [hsame]
    refine ⟨.inl, ?_⟩
    rintro (h | ⟨g, rfl, hg⟩)
    · exact h
    · -- the goal attached adds no entry: an equal one, of the same branch, is there
      obtain ⟨e, he, heq⟩ := hequal g rfl
      exact ⟨e.goal, List.mem_map_of_mem he, (branch_id_of_beq heq).trans hg⟩
  · rw [hnew]
    simp

/-! ## The change mark -/

/-- Attaching a goal and binding a loader leave the change mark alone. -/
def Op.KeepsMark (op : Op) : Prop := (∃ g, op = .addFitness g) ∨ ∃ l, op = .bindLoader l

/-- Setting a value clears the change mark, attaching a goal or binding a loader keeps it, and
every other operation sets it. -/
theorem changed_apply (op : Op) (c : Chromosome) :
    (op.apply c).changed = false ↔
      (∃ b v, op = .setFitnessValue b v) ∨ op.KeepsMark ∧ c.changed = false := by
  cases op with
  | addFitness g => simp [Op.apply, Op.KeepsMark]
  | setFitnessValue b v => simp [Op.apply, setFitnessValue]
  | clearCachedResults => simp [Op.apply, clearCachedResults, Op.KeepsMark]
  | setTest t => simp [Op.apply, setTest, Op.KeepsMark]
  | editTest f => simp [Op.apply, editTest, Op.KeepsMark]
  | bindLoader l => simp [Op.apply, bindLoader, Op.KeepsMark]

/-- An item of `l ++ [z]` followed only by items of `Q`, with `R` holding of it and the items
before it: it is `z`, or such an item of `l` and `z` is of `Q`. -/
theorem exists_split_append_singleton {α : Type} (R : List α → α → Prop) (Q : α → Prop)
    (l : List α) (z : α) :
    (∃ pre x post, l ++ [z] = pre ++ x :: post ∧ R pre x ∧ ∀ y ∈ post, Q y) ↔
      R l z ∨ Q z ∧ ∃ pre x post, l = pre ++ x :: post ∧ R pre x ∧ ∀ y ∈ post, Q y := by
  constructor
  · rintro ⟨pre, x, post, hsplit, hR, hQ⟩
    rcases List.eq_nil_or_concat post with rfl | ⟨post', w, rfl⟩
    · -- the item is the last one
      obtain ⟨rfl, hz⟩ := List.append_inj' hsplit rfl
      obtain rfl := List.singleton_inj.1 hz
      exact .inl hR
    · -- the last one comes after it
      rw [List.concat_eq_append] at hsplit hQ
      rw [← List.cons_append, ← List.append_assoc] at hsplit
      obtain ⟨rfl, hz⟩ := List.append_inj' hsplit rfl
      obtain rfl := List.singleton_inj.1 hz
      exact .inr ⟨hQ z (by simp), pre, x, post', rfl, hR, fun y hy => hQ y (by simp [hy])⟩
  · rintro (hR | ⟨hQ, pre, x, post, rfl, hR, hpost⟩)
    · exact ⟨l, z, [], rfl, hR, by simp⟩
    · refine ⟨pre, x, post ++ [z], by simp, hR, fun y hy => ?_⟩
      rcases List.mem_append.1 hy with hy | hy
      · exact hpost y hy
      · rw [List.mem_singleton.1 hy]
        exact hQ

/-! ## Cached values -/

/-- Updating the first item of one test leaves what a disjoint test finds. -/
theorem find?_modify_findIdx_of_disjoint {α : Type} (p q : α → Bool) (F : α → α)
    (hF : ∀ a, p (F a) = p a) (hpq : ∀ a, q a = true → p a = false) (l : List α) :
    (l.modify (l.findIdx q) F).find? p = l.find? p := by
  induction l with
  | nil => rfl
  | cons a rest ih =>
    by_cases hq : q a
    · simp [List.findIdx_cons, hq, hF, hpq a hq]
    · by_cases hp : p a
      · simp [List.findIdx_cons, hq, hp]
      · simp [List.findIdx_cons, hq, hp, ih]

theorem fitnessValue?_addFitness (c : Chromosome) (g : Goal) (b : Nat) :
    (c.addFitness g).fitnessValue? b = c.fitnessValue? b := by
  rcases addFitness_fitness c g with h | h
  · simp only [fitnessValue?, h]
  · -- a new entry holds no value, so finding it gives none, as finding nothing does
    simp only [fitnessValue?, h, List.find?_append]
    cases c.fitness.find? (·.goal.branch.id == b) with
    | some e => rfl
    | none =>
      simp only [Option.none_or, List.find?_cons, List.find?_nil]
      split <;> rfl

theorem fitnessValue?_clearCachedResults (c : Chromosome) (b : Nat) :
    c.clearCachedResults.fitnessValue? b = none := by
  simp only [fitnessValue?, clearCachedResults, List.find?_map]
  cases List.find? _ c.fitness <;> rfl

/-- Setting the value of a branch caches it when the branch has an entry. -/
theorem fitnessValue?_setFitnessValue_self (c : Chromosome) (b : Nat) (v : Float) :
    (c.setFitnessValue b v).fitnessValue? b =
      (c.fitness.find? (·.goal.branch.id == b)).map fun _ => v := by
  simp only [fitnessValue?, setFitnessValue]
  rw [find?_modify_findIdx _ (fun e : FitnessEntry => { e with value := some v }) (fun _ => rfl)]
  cases c.fitness.find? _ <;> rfl

/-- Setting the value of one branch leaves the value of another. -/
theorem fitnessValue?_setFitnessValue_of_ne (c : Chromosome) {b b' : Nat} (hne : b' ≠ b)
    (v : Float) : (c.setFitnessValue b' v).fitnessValue? b = c.fitnessValue? b := by
  simp only [fitnessValue?, setFitnessValue]
  rw [find?_modify_findIdx_of_disjoint _ _ (fun e : FitnessEntry => { e with value := some v })
    (fun _ => rfl) (fun e he => by simp at he ⊢; omega)]

/-- After an operation a branch holds `v` when the operation set `v` for it and it has an entry,
or when it held `v` and the operation neither cleared the values nor set one for it. -/
theorem fitnessValue?_apply_eq_some (op : Op) (c : Chromosome) (b : Nat) (v : Float) :
    (op.apply c).fitnessValue? b = some v ↔
      (op = .setFitnessValue b v ∧ ∃ h ∈ c.goals, h.branch.id = b) ∨
        (op ≠ .clearCachedResults ∧ (∀ w, op ≠ .setFitnessValue b w) ∧
          c.fitnessValue? b = some v) := by
  cases op with
  | addFitness g => simp [Op.apply, fitnessValue?_addFitness]
  | setFitnessValue b' w =>
    by_cases hb : b' = b
    · subst hb
      rw [Op.apply, fitnessValue?_setFitnessValue_self, ← find?_isSome_iff]
      cases c.fitness.find? (·.goal.branch.id == b') <;> simp [eq_comm]
    · rw [Op.apply, fitnessValue?_setFitnessValue_of_ne c hb]
      simp [hb]
  | clearCachedResults => simp [Op.apply, fitnessValue?_clearCachedResults]
  | setTest t => simp [Op.apply, setTest, fitnessValue?]
  | editTest f => simp [Op.apply, editTest, fitnessValue?]
  | bindLoader l => simp [Op.apply, bindLoader, fitnessValue?]

/-! ## Runs from a new chromosome -/

section Runs

variable (t : TestCase)

/-- The entries after some operations lead the entries after more: none is removed or moved. -/
theorem goals_run_prefix (pre post : List Op) (c : Chromosome) :
    (run pre c).goals <+: (run (pre ++ post) c).goals := by
  induction post using List.reverseRecOn with
  | nil => simp only [List.append_nil, List.prefix_refl]
  | append_singleton post op ih =>
    rw [← List.append_assoc, run_append_singleton]
    rcases goals_apply op (run (pre ++ post) c) with ⟨hsame, -⟩ | ⟨g, -, -, hnew⟩
    · rwa [hsame]
    · rw [hnew]
      exact ih.trans (List.prefix_append _ _)

/-- No two entries have equal goals. -/
theorem goals_run_pairwise (ops : List Op) :
    (run ops (new t)).goals.Pairwise fun g h => (g == h) = false := by
  induction ops using List.reverseRecOn with
  | nil => exact List.Pairwise.nil
  | append_singleton ops op ih =>
    rw [run_append_singleton]
    rcases goals_apply op (run ops (new t)) with ⟨hsame, -⟩ | ⟨g, -, hfresh, hnew⟩
    · rwa [hsame]
    · -- the new goal is equal to none of the entries before it
      rw [hnew, List.pairwise_append]
      refine ⟨ih, List.pairwise_singleton _ _, fun h hh g' hg' => ?_⟩
      obtain ⟨e, he, rfl⟩ := List.mem_map.1 hh
      rw [List.mem_singleton.1 hg']
      exact hfresh e he

/-- Every entry's goal was attached by one of the operations. -/
theorem goals_run_attached (ops : List Op) :
    ∀ h ∈ (run ops (new t)).goals, Op.addFitness h ∈ ops := by
  induction ops using List.reverseRecOn with
  | nil => intro h hh; simp [run, new, goals] at hh
  | append_singleton ops op ih =>
    intro h hh
    rw [run_append_singleton] at hh
    rcases goals_apply op (run ops (new t)) with ⟨hsame, -⟩ | ⟨g, rfl, -, hnew⟩
    · rw [hsame] at hh
      exact List.mem_append_left _ (ih h hh)
    · rw [hnew, List.mem_append, List.mem_singleton] at hh
      rcases hh with hh | rfl
      · exact List.mem_append_left _ (ih h hh)
      · exact List.mem_append_right _ (List.mem_singleton_self _)

/-- A branch has an entry exactly when a goal of it was attached. -/
theorem branch_mem_goals_run (ops : List Op) (b : Nat) :
    (∃ h ∈ (run ops (new t)).goals, h.branch.id = b) ↔
      ∃ g, Op.addFitness g ∈ ops ∧ g.branch.id = b := by
  induction ops using List.reverseRecOn with
  | nil => simp [run, new, goals]
  | append_singleton ops op ih =>
    rw [run_append_singleton, branch_mem_goals_apply, ih]
    constructor
    · rintro (⟨g, hg, hb⟩ | ⟨g, rfl, hb⟩)
      · exact ⟨g, List.mem_append_left _ hg, hb⟩
      · exact ⟨g, List.mem_append_right _ (List.mem_singleton_self _), hb⟩
    · rintro ⟨g, hg, hb⟩
      rcases List.mem_append.1 hg with hg | hg
      · exact .inl ⟨g, hg, hb⟩
      · exact .inr ⟨g, (List.mem_singleton.1 hg).symm, hb⟩

/-- The chromosome is unchanged exactly when a value was set after every operation that marks
it changed. -/
theorem changed_run (ops : List Op) :
    (run ops (new t)).changed = false ↔
      ∃ pre x post, ops = pre ++ x :: post ∧ (∃ b v, x = .setFitnessValue b v) ∧
        ∀ y ∈ post, y.KeepsMark := by
  induction ops using List.reverseRecOn with
  | nil => simp [run, new]
  | append_singleton ops op ih =>
    rw [run_append_singleton, changed_apply, ih,
      exists_split_append_singleton (fun _ (x : Op) => ∃ b v, x = .setFitnessValue b v)]

/-- A branch holds `v` exactly when `v` was the last value set for it after a goal of it was
attached, and no value was cleared since. -/
theorem fitnessValue?_run (ops : List Op) (b : Nat) (v : Float) :
    (run ops (new t)).fitnessValue? b = some v ↔
      ∃ pre x post, ops = pre ++ x :: post ∧
        (x = .setFitnessValue b v ∧ ∃ g, Op.addFitness g ∈ pre ∧ g.branch.id = b) ∧
        ∀ y ∈ post, y ≠ .clearCachedResults ∧ ∀ w, y ≠ .setFitnessValue b w := by
  induction ops using List.reverseRecOn with
  | nil => simp [run, new, fitnessValue?]
  | append_singleton ops op ih =>
    rw [run_append_singleton, fitnessValue?_apply_eq_some, branch_mem_goals_run, ih,
      exists_split_append_singleton (fun pre (x : Op) => x = .setFitnessValue b v ∧
        ∃ g, Op.addFitness g ∈ pre ∧ g.branch.id = b)]
    simp only [and_assoc]

end Runs

/-- **A chromosome follows the operations on it.** After any operations on a new chromosome:
the entries after a first part of the operations lead the entries after all of them, so none is
removed or moved and they stand in the order their goals were first attached; no two goals of
entries are equal, and each was attached by an operation. The chromosome is unchanged exactly
when a value was set and only goals were attached or loaders bound after it. A branch holds the
value `v` exactly when `v` is the last value set for it after a goal of it was attached, and no
value was cleared since; otherwise it holds none. -/
theorem run_follows_operations (t : TestCase) (ops : List Op) :
    let c := run ops (new t)
    (∀ pre post, ops = pre ++ post → (run pre (new t)).goals <+: c.goals) ∧
    c.goals.Pairwise (fun g h => (g == h) = false) ∧
    (∀ h ∈ c.goals, Op.addFitness h ∈ ops) ∧
    (c.changed = false ↔ ∃ pre x post, ops = pre ++ x :: post ∧
        (∃ b v, x = .setFitnessValue b v) ∧ ∀ y ∈ post, y.KeepsMark) ∧
    ∀ b v, c.fitnessValue? b = some v ↔ ∃ pre x post, ops = pre ++ x :: post ∧
        (x = .setFitnessValue b v ∧ ∃ g, Op.addFitness g ∈ pre ∧ g.branch.id = b) ∧
        ∀ y ∈ post, y ≠ .clearCachedResults ∧ ∀ w, y ≠ .setFitnessValue b w := by
  intro c
  refine ⟨fun pre post hops => ?_, goals_run_pairwise t ops, goals_run_attached t ops,
    changed_run t ops, fitnessValue?_run t ops⟩
  subst hops
  exact goals_run_prefix pre post (new t)

end Chromosome

end BranchSensitivity


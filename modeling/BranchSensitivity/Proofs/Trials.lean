import Mathlib.Data.List.Forall2
import BranchSensitivity.Analyzer
import BranchSensitivity.Proofs.InputMirror
import BranchSensitivity.Proofs.ObservedSites

/-!
# Trials against a seed

A trial copies the seed, mutates at most one input of the copy, runs the copy and records what
the sites captured. Every record of `analyzePrepared` is such a trial on a fresh copy: its inputs
are those built from the seed's own test with at most one mutation, whose old value is the seed's,
and its observations are keyed by exactly the identities of the sites.

    TrialBlock roots sites s.test m 0 T (analyzePrepared branch roots sites s m T a).1.records

`analyzeWithTrials` runs these trials on the supplied seed when it calls the target method, else
on a newly built seed, and gives the empty report of the branch only when it has neither. Trials
draw from the random source and update the collaborators; the configuration stays as it is.
-/

namespace BranchSensitivity

/-! ## Runs of a state monad over a list -/

section StateRuns

variable {σ α β : Type}

/-- Mapping a stateful step over a list relates each item to its result, when every run of the
step on an item of the list relates the item to its result. -/
theorem mapM_forall₂ (P : α → β → Prop) {f : α → StateM σ β} :
    ∀ (l : List α), (∀ x ∈ l, ∀ s, P x (f x s).1) → ∀ (s : σ), List.Forall₂ P l ((l.mapM f) s).1 := by
  intro l
  induction l with
  | nil => intro _ s; exact .nil
  | cons x xs ih =>
    intro hf s
    simp only [List.mapM_cons, bind, StateT.bind, pure, StateT.pure]
    have hy := hf x (by simp) s
    rcases hx : f x s with ⟨y, s'⟩
    rw [hx] at hy
    dsimp only
    have hys := ih (fun y hy => hf y (by simp [hy])) s'
    rcases hxs : (xs.mapM f) s' with ⟨ys, s''⟩
    rw [hxs] at hys
    exact .cons hy hys

/-- A view of the state that every step keeps is kept by mapping the step over a list. -/
theorem mapM_keeps {γ : Type} (view : σ → γ) {f : α → StateM σ β}
    (hf : ∀ x s, view (f x s).2 = view s) : ∀ (l : List α) (s : σ), view ((l.mapM f) s).2 = view s := by
  intro l
  induction l with
  | nil => intro s; rfl
  | cons x xs ih =>
    intro s
    simp only [List.mapM_cons, bind, StateT.bind, pure, StateT.pure]
    have h1 := hf x s
    rcases hx : f x s with ⟨y, s'⟩
    rw [hx] at h1
    dsimp only
    have h2 := ih s'
    rcases hxs : (xs.mapM f) s' with ⟨ys, s''⟩
    rw [hxs] at h2
    exact h2.trans h1

/-- What each step of a fold keeps, about the items folded so far, holds after the whole fold. -/
theorem foldlM_run {f : β → α → StateM σ β} (I : List α → β → σ → Prop)
    (hf : ∀ pre x acc s, I pre acc s → I (pre ++ [x]) (f acc x s).1 (f acc x s).2)
    (l : List α) (acc : β) (s : σ) (h : I [] acc s) :
    I l ((l.foldlM f acc) s).1 ((l.foldlM f acc) s).2 := by
  -- the invariant is carried along the items still to fold, after any prefix already folded
  suffices hrun : ∀ (l pre : List α) (acc : β) (s : σ), I pre acc s →
      I (pre ++ l) ((l.foldlM f acc) s).1 ((l.foldlM f acc) s).2 by
    have := hrun l [] acc s h
    rwa [List.nil_append] at this
  intro l
  induction l with
  | nil => intro pre acc s h; rw [List.append_nil]; exact h
  | cons x xs ih =>
    intro pre acc s h
    simp only [List.foldlM_cons, bind, StateT.bind]
    rcases hx : f acc x s with ⟨acc', s'⟩
    have h₁ := hf pre x acc s h
    rw [hx] at h₁
    simpa using ih (pre ++ [x]) acc' s' h₁

/-- A view of the state that every step keeps is kept by folding the step over a list. -/
theorem foldlM_keeps {γ : Type} (view : σ → γ) {f : β → α → StateM σ β}
    (hf : ∀ acc x s, view (f acc x s).2 = view s) :
    ∀ (l : List α) (acc : β) (s : σ), view ((l.foldlM f acc) s).2 = view s := by
  intro l acc s
  exact foldlM_run (fun _ _ s' => view s' = view s) (fun _ x acc s' h => (hf acc x s').trans h)
    l acc s rfl

end StateRuns

/-! ## The record of one trial -/

/-- The inputs `ins` are the inputs `built` from the seed test `seed` with at most one mutation
applied: without a mutation they are `built` itself; with one, its old value is the one the seed
stores at its position, and only the variable there changed, to the new value. -/
structure AtMostOneMutation (built : MethodInputs) (seed : TestCase) (ins : MethodInputs) :
    Prop where
  constants : ins.constants = built.constants
  unmutated : ins.mutation = none → ins = built
  mutated : ∀ x, ins.mutation = some x →
    (seed.get? x.position).bind Statement.primitiveValue? = some x.before ∧
    ins.primitives.map (·.1) = built.primitives.map (·.1) ∧
    ∀ p, ins.primitives.lookup p = if p = x.position then some x.after else built.primitives.lookup p

/-- One mutation of the inputs built from a test case leaves inputs of that shape. -/
theorem MethodInputs.MutateSpec.atMostOneMutation {roots : List RootVariable} {t : TestCase}
    {m : CodeMap} {r : Option Mutation × MethodInputs × TestCase}
    (hspec : (MethodInputs.build roots t m).MutateSpec t r) :
    AtMostOneMutation (MethodInputs.build roots t m) t r.2.1 := by
  have hmirror := MethodInputs.build_mirrors roots t m
  cases hspec with
  | unchanged =>
    refine ⟨rfl, (fun _ => rfl), fun x hx => ?_⟩
    simp [MethodInputs.build_mutation] at hx
  | mutated mu st hmem hcan hkind hst hprim =>
    refine ⟨rfl, (fun h => nomatch h), fun x hx => ?_⟩
    cases hx
    have hkey : mu.position ∈ (MethodInputs.build roots t m).primitives.map (·.1) :=
      List.mem_map_of_mem (f := (·.1)) hmem
    exact ⟨hmirror.stored _ _ hmem, keys_insertSorted_of_mem hmirror.sorted hkey,
      lookup_insertSorted hmirror.sorted⟩

/-- What the record of trial `n` of group `g` holds, for trials run on copies of the seed test
`seed` with the map `m`, probing `roots` at `sites`. -/
structure TrialRecord (roots : List RootVariable) (sites : List Instruction) (seed : TestCase)
    (m : CodeMap) (g n : Nat) (rec : ObservationRecord) : Prop where
  trial : rec.trial.toNat = n
  group : rec.group.toNat = g
  /-- The observations are keyed by the identities of the sites, in increasing order. -/
  keys_sorted : (rec.observations.map (·.1)).Pairwise (· < ·)
  mem_keys : ∀ k, k ∈ rec.observations.map (·.1) ↔ ∃ s ∈ sites, s.id = k
  inputs : AtMostOneMutation (MethodInputs.build roots seed m) seed rec.inputs

/-- The records of `T` trials of group `g`, numbered `0, 1, …, T - 1` in order. -/
def TrialBlock (roots : List RootVariable) (sites : List Instruction) (seed : TestCase)
    (m : CodeMap) (g T : Nat) (records : List ObservationRecord) : Prop :=
  records.length = T ∧ ∀ k rec, records[k]? = some rec → TrialRecord roots sites seed m g k rec

/-- A list related item by item to `0, 1, …, T - 1` has `T` items, the `k`-th related to `k`. -/
theorem forall₂_range_getElem? {β : Type} {P : Nat → β → Prop} {T : Nat} {l : List β}
    (h : List.Forall₂ P (List.range T) l) : l.length = T ∧ ∀ k y, l[k]? = some y → P k y := by
  have hlen : l.length = T := by simpa using h.length_eq.symm
  refine ⟨hlen, fun k y hy => ?_⟩
  obtain ⟨hk, rfl⟩ := List.getElem?_eq_some_iff.1 hy
  have hk' : k < (List.range T).length := by simpa [hlen] using hk
  simpa using h.get hk' hk

namespace Analyzer

variable {α φ ψ σ ρ : Type} (branch : Branch) (roots : List RootVariable)
  (sites : List Instruction) (seed : Chromosome) (m : CodeMap)

/-- **One trial.** Trial `n` mutates the inputs built from the seed's own test, at most once,
and observes the sites. -/
theorem trial_record {n : Nat} (hn : n < UInt64.size) (a : Analyzer α φ ψ σ ρ) :
    TrialRecord roots sites seed.test m 0 n (trial branch roots sites seed m n a).1 := by
  have hspec := (MethodInputs.build_mirrors roots seed.test m).mutate_spec
    (Mutator.ofConfig a.config) a.rng
  simp only [trial, draw, bind, StateT.bind, get, getThe, MonadStateOf.get, StateT.get, pure,
    StateT.pure, set, StateT.set, MonadStateOf.set]
  rcases hmut : (MethodInputs.build roots seed.test m).mutate seed.test (Mutator.ofConfig a.config)
    a.rng with ⟨⟨res, ins, t⟩, r⟩
  rw [hmut] at hspec
  dsimp only
  obtain ⟨hsorted, hmem⟩ := ObservationBuffer.forSites_keys sites
  have hkeys := Harness.keys_observe a.collaborators.harness a.collaborators.sandbox
    a.collaborators.fitness branch sites { test := t, fitness := seed.fitness, loader := seed.loader }
  refine ⟨UInt64.toNat_ofNat_of_lt' hn, rfl, ?_, ?_, hspec.atMostOneMutation⟩
  · rw [hkeys, List.pairwise_map]
    exact hsorted
  · intro k
    rw [hkeys, hmem]

/-- A trial leaves the configuration alone. -/
theorem trial_config (n : Nat) (a : Analyzer α φ ψ σ ρ) :
    (trial branch roots sites seed m n a).2.config = a.config := by
  simp only [trial, draw, bind, StateT.bind, get, getThe, MonadStateOf.get, StateT.get, pure,
    StateT.pure, set, StateT.set, MonadStateOf.set]
  rcases (MethodInputs.build roots seed.test m).mutate seed.test (Mutator.ofConfig a.config)
    a.rng with ⟨⟨res, ins, t⟩, r⟩
  rfl

/-- Resolving the heads leaves the configuration alone. -/
theorem resolveHeads_config (t : TestCase) (a : Analyzer α φ ψ σ ρ) :
    (resolveHeads roots t m a).2.config = a.config := by
  simp only [resolveHeads, bind, StateT.bind, get, getThe, MonadStateOf.get, StateT.get]
  refine foldlM_keeps Analyzer.config (fun acc root a' => ?_) _ _ _
  simp only [draw, bind, StateT.bind, pure]
  rcases ({ targetMethod := a.config.targetMethod } : Resolver).resolve root t m a'.rng with
    ⟨res, r⟩
  -- a root that resolves to a statement draws its heads; the others draw nothing more
  rcases res with _ | (v | p)
  · rfl
  · rfl
  · simp only [StateT.bind, StateT.pure]
    rcases t.headStatements p r with ⟨heads, r'⟩
    rfl

/-- **Trials on a prepared seed.** The report is the branch's, with the roots and sites
probed, and its records are `T` trials of group `0` on copies of the seed. -/
theorem analyzePrepared_report (T : UInt64) (a : Analyzer α φ ψ σ ρ) :
    let r := (analyzePrepared branch roots sites seed m T a).1
    r.branch = some branch.id ∧ r.roots = roots ∧ r.sites = sites ∧
      TrialBlock roots sites seed.test m 0 T.toNat r.records := by
  simp only [analyzePrepared, bind, StateT.bind, get, getThe, MonadStateOf.get, StateT.get, pure,
    StateT.pure]
  rcases resolveHeads roots seed.test m a with ⟨heads, a₁⟩
  dsimp only
  -- every trial number is below the count of trials, a 64-bit word
  have hrecords := mapM_forall₂ (fun n rec => TrialRecord roots sites seed.test m 0 n rec)
    (List.range T.toNat) (fun n hn => trial_record branch roots sites seed m
      ((List.mem_range.1 hn).trans (UInt64.toNat_lt_size T))) a₁
  rcases hmap : (List.range T.toNat).mapM (trial branch roots sites seed m) a₁ with ⟨records, a₂⟩
  rw [hmap] at hrecords
  exact ⟨rfl, rfl, rfl, forall₂_range_getElem? hrecords⟩

/-- Running trials on a prepared seed leaves the configuration alone. -/
theorem analyzePrepared_config (T : UInt64) (a : Analyzer α φ ψ σ ρ) :
    (analyzePrepared branch roots sites seed m T a).2.config = a.config := by
  simp only [analyzePrepared, bind, StateT.bind, get, getThe, MonadStateOf.get, StateT.get, pure,
    StateT.pure]
  have h₁ := resolveHeads_config roots m seed.test a
  rcases hres : resolveHeads roots seed.test m a with ⟨heads, a₁⟩
  rw [hres] at h₁
  dsimp only
  have h₂ := mapM_keeps Analyzer.config (trial_config branch roots sites seed m) (List.range T.toNat) a₁
  rcases hmap : (List.range T.toNat).mapM (trial branch roots sites seed m) a₁ with ⟨records, a₂⟩
  rw [hmap] at h₂
  exact h₂.trans h₁

/-- Constructing for a branch leaves the configuration alone. -/
theorem construct_config (t : TestCase) (a : Analyzer α φ ψ σ ρ) :
    (construct t branch a).2.config = a.config := by
  simp only [construct, draw, bind, StateT.bind, get, getThe, MonadStateOf.get, StateT.get,
    modify, modifyGet, MonadStateOf.modifyGet, StateT.modifyGet, pure]
  rcases a.collaborators.synthesizerOps.construct a.collaborators.synthesizer t branch
    a.config.allowNullInputs a.rng with ⟨⟨res, t', syn⟩, r⟩
  cases res <;> rfl

/-- Building a seed leaves the configuration alone. -/
theorem constructedSeed_config (a : Analyzer α φ ψ σ ρ) :
    (constructedSeed branch a).2.config = a.config := by
  simp only [constructedSeed, draw, bind, StateT.bind, get, getThe, MonadStateOf.get, StateT.get,
    modify, modifyGet, MonadStateOf.modifyGet, StateT.modifyGet, pure]
  rcases (SeedBuilder.ofConfig a.config).build a.collaborators.factoryOps
    (some a.config.targetMethod) a.clock a.collaborators.factory a.rng with ⟨⟨res, factory, clock⟩, r⟩
  dsimp only
  rcases res with e | t
  · rfl
  · simp only [StateT.bind]
    have h := construct_config branch t ⟨a.config, { a.collaborators with factory }, r, clock⟩
    rcases hc : construct t branch ⟨a.config, { a.collaborators with factory }, r, clock⟩ with
      ⟨⟨t', m⟩, a'⟩
    rw [hc] at h
    exact h

/-- Building a seed fails exactly when the seed builder fails: constructing never does. -/
theorem constructedSeed_eq_error (a : Analyzer α φ ψ σ ρ) (e : AnalysisError) :
    (constructedSeed branch a).1 = .error e ↔
      ((SeedBuilder.ofConfig a.config).build a.collaborators.factoryOps
        (some a.config.targetMethod) a.clock a.collaborators.factory a.rng).1.1 = .error e := by
  simp only [constructedSeed, draw, bind, StateT.bind, get, getThe, MonadStateOf.get, StateT.get,
    modify, modifyGet, MonadStateOf.modifyGet, StateT.modifyGet, pure]
  rcases (SeedBuilder.ofConfig a.config).build a.collaborators.factoryOps
    (some a.config.targetMethod) a.clock a.collaborators.factory a.rng with ⟨⟨res, factory, clock⟩, r⟩
  dsimp only
  rcases res with e' | t
  · simp [StateT.pure, pure]
  · simp only [StateT.bind, StateT.pure]
    rcases construct t branch _ with ⟨⟨t', m⟩, a'⟩
    simp

/-- **Trials on fresh copies of the seed.** On any seed and map, `analyzePrepared` gives `T`
records, each trial of group `0` on a fresh copy of the seed. `analyzeWithTrials` gives such
records for the supplied seed, after the synthesizer constructed in it, when it calls the target,
else for a newly built seed; only when no supplied seed calls the target and no seed can be built
does it give the empty report of the branch instead. -/
theorem trials_on_fresh_seed_copies (T : UInt64) (seed? : Option Chromosome)
    (a : Analyzer α φ ψ σ ρ) :
    (∀ (s : Chromosome) (m : CodeMap), TrialBlock roots sites s.test m 0 T.toNat
      (analyzePrepared branch roots sites s m T a).1.records) ∧
    let r := (analyzeWithTrials branch roots sites seed? T a).1
    (∃ (s : TestCase) (m : CodeMap), r.branch = some branch.id ∧
        TrialBlock roots sites s m 0 T.toNat r.records ∧
        ((∃ c, seed?.filter (a.callsTarget ·.test) = some c ∧ (construct c.test branch a).1 = (s, m)) ∨
          (seed?.filter (a.callsTarget ·.test) = none ∧
            ∃ c, (constructedSeed branch a).1 = .ok (c, m) ∧ s = c.test))) ∨
      (seed?.filter (a.callsTarget ·.test) = none ∧
        (∃ e, ((SeedBuilder.ofConfig a.config).build a.collaborators.factoryOps
          (some a.config.targetMethod) a.clock a.collaborators.factory a.rng).1.1 = .error e) ∧
        r = Report.empty (some branch.id) a.similarity) := by
  refine ⟨fun s m' => (analyzePrepared_report branch roots sites s m' T a).2.2.2, ?_⟩
  simp only [analyzeWithTrials, bind, StateT.bind, get, getThe, MonadStateOf.get, StateT.get,
    pure]
  cases hf : seed?.filter (a.callsTarget ·.test) with
  | some c =>
    -- the supplied seed calls the target: its own test, after construction, is probed
    simp only [StateT.bind, StateT.pure]
    rcases hcon : construct c.test branch a with ⟨⟨t', m'⟩, a₁⟩
    obtain ⟨hbranch, -, -, hblock⟩ :=
      analyzePrepared_report branch roots sites { c with test := t', changed := true } m' T a₁
    exact .inl ⟨t', m', hbranch, hblock, .inl ⟨c, rfl, by rw [hcon]⟩⟩
  | none =>
    -- a seed is built for the branch, unless the factory cannot build one
    simp only [StateT.bind]
    rcases hseed : constructedSeed branch a with ⟨res, a₁⟩
    dsimp only
    rcases res with e | ⟨c, m'⟩
    · exact .inr ⟨trivial, ⟨e, (constructedSeed_eq_error branch a e).1 (by rw [hseed])⟩, rfl⟩
    · obtain ⟨hbranch, -, -, hblock⟩ := analyzePrepared_report branch roots sites c m' T a₁
      exact .inl ⟨c.test, m', hbranch, hblock, .inr ⟨trivial, c, rfl, rfl⟩⟩

end Analyzer

end BranchSensitivity

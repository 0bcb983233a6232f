import BranchSensitivity.Proofs.Trials
import BranchSensitivity.Proofs.Merge
import BranchSensitivity.Fixture

/-!
# Probing a branch path by path

A branch analysis without a given path gathers the branch's computation paths: for each root
variable its paths, in order, keeping the first of structurally equal paths, field-rooted paths
first. Every path with a root is then probed against one shared seed, `T` trials each, and the
reports are merged in order into the empty report of the branch. The merge shifts each new report
past every group already there, so the report is laid out in blocks, one per rooted path:

    P = (prioritizeFields (union [] (roots.flatMap (computationPaths · b)))).filter (·.root?.isSome)
    records = block 0 ++ block 1 ++ … ++ block (|P| - 1),    |block k| = T,  groups of block k = k

and its roots and sites are the order-keeping unions of the blocks' roots and tails. Without rooted
paths, or when no seed can be built, the report is the branch's empty report. Groups are 64-bit
words: the layout holds while there are fewer than `2 ^ 64` rooted paths, as there are in any
list of them the analysis can hand out.
-/

namespace BranchSensitivity

/-! ## The probed paths -/

theorem Report.union_append {β : Type} [BEq β] (xs ys zs : List β) :
    Report.union xs (ys ++ zs) = Report.union (Report.union xs ys) zs :=
  List.foldl_append

/-- Parsing the paths of a branch is one union over the paths of all its roots. -/
theorem AnalysisOps.parsedPaths_eq_union {α : Type} (A : AnalysisOps α) (x : α) (b : Branch) :
    A.parsedPaths x b =
      Report.union [] ((A.rootVariables x b).flatMap (A.computationPaths x · b)) := by
  rw [parsedPaths, Report.union, List.foldl_flatMap]

namespace Collaborators

variable {α φ ψ σ ρ : Type} (c : Collaborators α φ ψ σ ρ)

/-- The paths a branch analysis probes, in order: the paths of every root variable, the first of
structurally equal ones kept, field-rooted paths first, those with a root only. -/
def probedPaths (b : Branch) : List ComputationPath :=
  (ComputationPath.prioritizeFields
    (Report.union [] ((c.analysisOps.rootVariables c.analysis b).flatMap
      (c.analysisOps.computationPaths c.analysis · b)))).filter (·.root?.isSome)

theorem probedPaths_eq (b : Branch) :
    c.probedPaths b = (ComputationPath.prioritizeFields (c.parsedPaths b)).filter (·.root?.isSome) := by
  rw [probedPaths, parsedPaths, AnalysisOps.parsedPaths_eq_union]

end Collaborators

/-! ## Blocks of trials -/

theorem TrialRecord.shift {roots : List RootVariable} {sites : List Instruction} {seed : TestCase}
    {m : CodeMap} {g n : Nat} {rec : ObservationRecord} (h : TrialRecord roots sites seed m g n rec)
    (k : UInt64) (hk : g + k.toNat < UInt64.size) :
    TrialRecord roots sites seed m (g + k.toNat) n (rec.shift k) :=
  ⟨h.trial, by rw [ObservationRecord.shift_group, UInt64.toNat_add_of_lt (h.group ▸ hk), h.group],
    h.keys_sorted, h.mem_keys, h.inputs⟩

namespace TrialBlock

variable {roots : List RootVariable} {sites : List Instruction} {seed : TestCase} {m : CodeMap}
  {g T : Nat} {records : List ObservationRecord}

theorem group_toNat (h : TrialBlock roots sites seed m g T records) {rec : ObservationRecord}
    (hrec : rec ∈ records) : rec.group.toNat = g := by
  obtain ⟨k, hk⟩ := List.mem_iff_getElem?.1 hrec
  exact (h.2 k rec hk).group

/-- Every trial of a block of group zero is of group zero. -/
theorem groups_zero (h : TrialBlock roots sites seed m 0 T records) :
    records.map (·.group) = List.replicate T 0 := by
  rw [List.eq_replicate_iff, List.length_map]
  refine ⟨h.1, ?_⟩
  intro g' hg'
  obtain ⟨rec, hrec, rfl⟩ := List.mem_map.1 hg'
  exact UInt64.toNat_inj.1 (h.group_toNat hrec)

/-- Shifting a block's trials moves the block to a later group, while that group fits a word. -/
theorem shift (h : TrialBlock roots sites seed m g T records) (k : UInt64)
    (hk : g + k.toNat < UInt64.size) :
    TrialBlock roots sites seed m (g + k.toNat) T (records.map (·.shift k)) := by
  refine ⟨by rw [List.length_map, h.1], ?_⟩
  intro n rec hrec
  rw [List.getElem?_map] at hrec
  obtain ⟨rec₀, hrec₀, rfl⟩ := Option.map_eq_some_iff.1 hrec
  exact (h.2 n rec₀ hrec₀).shift k hk

end TrialBlock

/-- A nonempty stretch of one group is one run. -/
theorem runCount_replicate (n : Nat) (g : UInt64) : runCount (List.replicate (n + 1) g) = 1 := by
  induction n with
  | zero => rfl
  | succ n ih =>
    -- the first of two equal groups starts no run of its own
    rw [List.replicate_succ, List.replicate_succ]
    simp only [runCount, beq_self_eq_true, ↓reduceIte, Nat.zero_add]
    rw [← List.replicate_succ]
    exact ih

/-- A report holding one nonempty block of group zero ends its groups at one. -/
theorem Report.nextGroup_of_groups {r : Report} {T : Nat} (hT : 1 ≤ T)
    (h : r.records.map (·.group) = List.replicate T 0) : r.nextGroup = 1 := by
  have hzero : ∀ x ∈ r.records, x.group = 0 := fun x hx =>
    List.eq_of_mem_replicate (h ▸ List.mem_map_of_mem hx)
  have hones : r.records.map (·.group.toNat + 1) = List.replicate T 1 := by
    have hsplit : r.records.map (·.group.toNat + 1) = (r.records.map (·.group)).map (·.toNat + 1) := by
      rw [List.map_map]
      rfl
    rw [hsplit, h, List.map_replicate]
    rfl
  have hfits : ∀ x ∈ r.records, x.group.toNat + 1 < UInt64.size := fun x hx => by
    rw [hzero x hx]
    decide
  apply UInt64.toNat_inj.1
  rw [Report.nextGroup_toNat hfits, hones, List.foldl_max, List.max?_replicate_of_pos (by omega)]
  rfl

/-! ## The layout of a branch report -/

/-- How the report of a branch analysis lays out the trials of the probed paths `ps`: the path
`ps[k]` gave the `k`-th block of `T` trials, all of group `k`, and the roots and sites are the
order-keeping unions of the blocks' own. Before any path, the report is the branch's empty
report. -/
structure BlockLayout (b : Branch) (sim : Similarity.Settings) (seed : TestCase) (m : CodeMap)
    (T : Nat) (ps : List ComputationPath) (r : Report) : Prop where
  unprobed : ps = [] → r = Report.empty (some b.id) sim
  branch : r.branch = some b.id
  length : r.records.length = ps.length * T
  blocks : ∀ k p root, ps[k]? = some p → p.root? = some root →
    TrialBlock [root] [p.tail] seed m k T ((r.records.drop (k * T)).take T)
  roots : r.roots = Report.union [] (ps.filterMap (·.root?))
  sites : r.sites = Report.union [] (ps.map (·.tail))
  groups_lt : ∀ rec ∈ r.records, rec.group.toNat < ps.length
  nextGroup : r.nextGroup.toNat = ps.length
  groupCount : r.groupCount = ps.length

namespace BlockLayout

variable {b : Branch} {sim : Similarity.Settings} {seed : TestCase} {m : CodeMap} {T : Nat}

theorem empty : BlockLayout b sim seed m T [] (Report.empty (some b.id) sim) where
  unprobed _ := rfl
  branch := rfl
  length := (Nat.zero_mul T).symm
  blocks k p root hp := by simp at hp
  roots := rfl
  sites := rfl
  groups_lt rec hrec := by simp [Report.empty] at hrec
  nextGroup := rfl
  groupCount := rfl

/-- The blocks already there stay where they were when a report is merged after them. -/
theorem take_drop_merge {r part : Report} {n k : Nat} (hlen : r.records.length = n * T)
    (hk : k < n) :
    (((r.merge part).records.drop (k * T)).take T) = (r.records.drop (k * T)).take T := by
  have hle : k * T + T ≤ r.records.length := by
    have := Nat.mul_le_mul_right T hk
    rw [Nat.succ_mul] at this
    omega
  rw [Report.merge_records, List.drop_append_of_le_length (by omega),
    List.take_append_of_le_length (by rw [List.length_drop]; omega)]

/-- Merging the trials of one more rooted path adds its block after the others, while the paths
number fewer than `2 ^ 64`. -/
theorem merge {ps : List ComputationPath} {r part : Report} (h : BlockLayout b sim seed m T ps r)
    (hT : 1 ≤ T) {p : ComputationPath} {root : RootVariable} (hroot : p.root? = some root)
    (hroots : part.roots = [root]) (hsites : part.sites = [p.tail])
    (hblock : TrialBlock [root] [p.tail] seed m 0 T part.records)
    (hfits : (ps ++ [p]).length < UInt64.size) :
    BlockLayout b sim seed m T (ps ++ [p]) (r.merge part) := by
  rw [List.length_append, List.length_singleton] at hfits
  have hpart_groups := hblock.groups_zero
  have hpart_count : part.groupCount = 1 := by
    obtain ⟨n, rfl⟩ : ∃ n, T = n + 1 := ⟨T - 1, by omega⟩
    rw [Report.groupCount, hpart_groups, runCount_replicate]
  -- the new block lands at group `|ps|`, past every group already there, and wraps nothing
  have hfit : r.MergeFits part := fun x hx y hy => by
    have := h.groups_lt x hx
    rw [hblock.group_toNat hy]
    omega
  have hnew : ∀ y ∈ part.records.map (·.shift r.nextGroup), y.group.toNat = ps.length := by
    intro y hy
    obtain ⟨y₀, hy₀, rfl⟩ := List.mem_map.1 hy
    rw [ObservationRecord.shift_group, (hfit.shift_group hy₀).1, hblock.group_toNat hy₀, h.nextGroup,
      Nat.zero_add]
  have hmerged : ∀ x ∈ (r.merge part).records, x.group.toNat < ps.length + 1 := by
    intro x hx
    rw [Report.merge_records, List.mem_append] at hx
    rcases hx with hx | hx
    · have := h.groups_lt x hx
      omega
    · rw [hnew x hx]
      omega
  refine ⟨fun hnil => by simp at hnil, by simp [Report.merge, h.branch], ?_, ?_, ?_, ?_, ?_, ?_, ?_⟩
  · -- length: one more block of `T`
    rw [Report.merge_records, List.length_append, List.length_map, h.length, hblock.1,
      List.length_append, List.length_singleton, Nat.succ_mul]
  · intro k q root' hq hroot'
    rcases Nat.lt_trichotomy k ps.length with hk | rfl | hk
    · -- a block already there
      rw [List.getElem?_append_left hk] at hq
      rw [take_drop_merge h.length hk]
      exact h.blocks k q root' hq hroot'
    · -- the new block, shifted past the others
      rw [List.getElem?_append_right (Nat.le_refl _), Nat.sub_self] at hq
      obtain rfl : p = q := by simpa using hq
      obtain rfl : root = root' := by rw [hroot] at hroot'; exact Option.some.inj hroot'
      rw [Report.merge_records, List.drop_left' (by rw [h.length]),
        List.take_of_length_le (by simp [hblock.1])]
      have hshift := hblock.shift r.nextGroup (by rw [h.nextGroup]; omega)
      rwa [Nat.zero_add, h.nextGroup] at hshift
    · rw [List.getElem?_eq_none (by simp; omega)] at hq
      cases hq
  · have hfilter : (ps ++ [p]).filterMap (·.root?) = ps.filterMap (·.root?) ++ [root] := by
      simp [List.filterMap_append, hroot]
    rw [show (r.merge part).roots = Report.union r.roots part.roots from rfl, h.roots, hroots,
      hfilter, Report.union_append]
  · rw [show (r.merge part).sites = Report.union r.sites part.sites from rfl, h.sites, hsites,
      List.map_append, List.map_singleton, Report.union_append]
  · simpa using hmerged
  · -- the largest group is now `|ps|`, that of the new block
    have hfits' : ∀ x ∈ (r.merge part).records, x.group.toNat + 1 < UInt64.size := fun x hx => by
      have := hmerged x hx
      omega
    obtain ⟨y₀, hy₀⟩ : ∃ y₀, y₀ ∈ part.records :=
      List.exists_mem_of_length_pos (by rw [hblock.1]; omega)
    have hy : y₀.shift r.nextGroup ∈ (r.merge part).records := by
      rw [Report.merge_records]
      exact List.mem_append_right _ (List.mem_map_of_mem hy₀)
    have hlow := Report.group_lt_nextGroup hfits' hy
    have hhigh := Report.nextGroup_toNat_le hfits' fun x hx => hmerged x hx
    rw [hnew _ (List.mem_map_of_mem hy₀)] at hlow
    simp only [List.length_append, List.length_singleton]
    omega
  · rw [Report.groupCount_merge hfit, h.groupCount, hpart_count, List.length_append,
      List.length_singleton]

end BlockLayout

/-! ## Analyzing a branch along all its paths -/

namespace Analyzer

variable {α φ ψ σ ρ : Type}

/-- A built analyzer runs at least one trial per path: validation refuses zero trials. -/
theorem new_trials_pos {c : Config} {col : Collaborators α φ ψ σ ρ} {entropy : Random.Rng}
    {clock : List Nat} {a : Analyzer α φ ψ σ ρ} (h : new c col entropy clock = .ok a) :
    1 ≤ a.config.trials := by
  simp only [new, bind, Except.bind] at h
  rcases hv : c.validate with e | u
  · rw [hv] at h
    cases h
  · rw [hv] at h
    cases h
    -- the first check of validation is the one on the number of trials
    by_cases h0 : c.trials = 0
    · simp [Config.validate, h0] at hv
    · show 1 ≤ c.trials
      rw [UInt64.le_iff_toNat_le]
      have : c.trials.toNat ≠ 0 := fun h => h0 (UInt64.toNat_inj.1 h)
      simp only [UInt64.toNat_one]
      omega

variable (b : Branch) (a : Analyzer α φ ψ σ ρ)

/-- The seed is built once, before any path: when that fails the report is the branch's empty
report. -/
theorem analyzeBranch_of_seed_error {e : AnalysisError} (he : (constructedSeed b a).1 = .error e) :
    (analyzeBranch b none a).1 = Report.empty (some b.id) a.similarity := by
  simp only [analyzeBranch, bind, StateT.bind, get, getThe, MonadStateOf.get, StateT.get, pure]
  split
  · rfl
  · simp only [StateT.bind]
    rcases hcs : constructedSeed b a with ⟨res, a'⟩
    rw [hcs] at he
    cases he
    rfl

/-- Probing paths after the branch's empty report lays out one block for each rooted path, while
they number fewer than `2 ^ 64`. -/
theorem probePaths_layout (hT : 1 ≤ a.config.trials.toNat) (seed : Chromosome) (m : CodeMap)
    (paths : List ComputationPath) (hP : (paths.filter (·.root?.isSome)).length < UInt64.size)
    (s : Analyzer α φ ψ σ ρ) (hs : s.config = a.config) :
    BlockLayout b a.similarity seed.test m a.config.trials.toNat (paths.filter (·.root?.isSome))
      (probePaths b seed m paths (Report.empty (some b.id) a.similarity) s).1 := by
  -- the fold keeps the layout of the rooted paths folded so far, while they number fewer than
  -- `2 ^ 64`, and the configuration
  let I : List ComputationPath → Report → Analyzer α φ ψ σ ρ → Prop := fun pre acc s =>
    ((pre.filter (·.root?.isSome)).length < UInt64.size →
      BlockLayout b a.similarity seed.test m a.config.trials.toNat (pre.filter (·.root?.isSome))
        acc) ∧ s.config = a.config
  refine (foldlM_run I ?_ _ _ s ⟨fun _ => BlockLayout.empty, hs⟩).1 hP
  intro pre p acc s hI
  obtain ⟨hlayout, hconfig⟩ := hI
  simp only [I]
  cases hroot : p.root? with
  | none =>
    have hkeep : (pre ++ [p]).filter (·.root?.isSome) = pre.filter (·.root?.isSome) := by
      simp [hroot]
    rw [hkeep]
    exact ⟨hlayout, hconfig⟩
  | some root =>
    simp only [StateT.bind, get, getThe, MonadStateOf.get, StateT.get, StateT.pure, pure, bind]
    have hreport := analyzePrepared_report b [root] [p.tail] seed m s.config.trials s
    have hconfig' := analyzePrepared_config b [root] [p.tail] seed m s.config.trials s
    rcases hpart : analyzePrepared b [root] [p.tail] seed m s.config.trials s with ⟨part, s'⟩
    rw [hpart] at hreport hconfig'
    obtain ⟨-, hroots, hsites, hblock⟩ := hreport
    rw [hconfig] at hblock
    have hnext : (pre ++ [p]).filter (·.root?.isSome) = pre.filter (·.root?.isSome) ++ [p] := by
      simp [hroot]
    rw [hnext]
    refine ⟨fun hfits => ?_, hconfig'.trans hconfig⟩
    have hpre : (pre.filter (·.root?.isSome)).length < UInt64.size := by
      simp only [List.length_append, List.length_singleton] at hfits
      omega
    exact (hlayout hpre).merge hT hroot hroots hsites hblock hfits

/-- With a seed built, the report lays out one block for each probed path. -/
theorem analyzeBranch_layout (hT : 1 ≤ a.config.trials.toNat) {seed : Chromosome} {m : CodeMap}
    (hP : (a.collaborators.probedPaths b).length < UInt64.size)
    (hok : (constructedSeed b a).1 = .ok (seed, m)) :
    BlockLayout b a.similarity seed.test m a.config.trials.toNat
      (a.collaborators.probedPaths b) (analyzeBranch b none a).1 := by
  rw [Collaborators.probedPaths_eq] at hP ⊢
  simp only [analyzeBranch, bind, StateT.bind, get, getThe, MonadStateOf.get, StateT.get, pure]
  split
  · -- no paths at all: nothing is probed
    rename_i hempty
    rw [List.isEmpty_iff.1 hempty]
    exact BlockLayout.empty
  · simp only [StateT.bind]
    have hconfig₀ := constructedSeed_config b a
    rcases hcs : constructedSeed b a with ⟨res, a₀⟩
    rw [hcs] at hok hconfig₀
    cases hok
    exact probePaths_layout b a hT seed m _ hP a₀ hconfig₀

/-- **A branch report is laid out path by path.** Analyzing a branch along all its paths probes
the rooted paths `P` it gathers, in order; with `T ≥ 1` trials per path its report holds `|P|`
blocks of `T` trials, the `k`-th block the trials of `P[k]`, of group `k`, numbered `0` to `T - 1`,
observing exactly the tail of `P[k]`; its roots and sites are the order-keeping unions of the
paths' roots and tails, and it has `|P|` groups. Groups are 64-bit words, and this holds for the
fewer than `2 ^ 64` paths a list handed out by the analysis holds. Without rooted paths, or when
the seed cannot be built, the report is the branch's empty report. -/
theorem probed_paths_in_blocks (hT : 1 ≤ a.config.trials)
    (hP : (a.collaborators.probedPaths b).length < UInt64.size) :
    let P := a.collaborators.probedPaths b
    let r := (analyzeBranch b none a).1
    (P = [] → r = Report.empty (some b.id) a.similarity) ∧
    (∀ e, (constructedSeed b a).1 = .error e → r = Report.empty (some b.id) a.similarity) ∧
    ∀ seed m, (constructedSeed b a).1 = .ok (seed, m) →
      BlockLayout b a.similarity seed.test m a.config.trials.toNat P r := by
  intro P r
  have hT' : 1 ≤ a.config.trials.toNat := by
    rw [UInt64.le_iff_toNat_le] at hT
    exact hT
  refine ⟨fun hP' => ?_, fun e he => analyzeBranch_of_seed_error b a he,
    fun seed m hok => analyzeBranch_layout b a hT' hP hok⟩
  rcases hcs : (constructedSeed b a).1 with e | ⟨seed, m⟩
  · exact analyzeBranch_of_seed_error b a hcs
  · exact (analyzeBranch_layout b a hT' hP hcs).unprobed hP'

/-- The fixture's branch with a path from a local and one from a field, analyzed with ten trials
per path. -/
theorem probed_paths_in_blocks_local_and_field :
    let an := (({} : TableAnalysis).withPath
        ⟨Fixture.targetBranch, [Fixture.localVar "x"], Fixture.returnSite⟩).withPath
        ⟨Fixture.targetBranch, [Fixture.instanceField "offset"], Fixture.returnSite⟩
    let s := Fixture.Scenario.new .delta
    let a : SimulatedAnalyzer := ⟨s.config, { s.collaborators with analysis := an },
      Random.Rng.ofSeed 42, List.replicate 10 0⟩
    let b := Fixture.targetBranch
    1 ≤ a.config.trials ∧ (a.collaborators.probedPaths b).length < UInt64.size ∧
      let P := a.collaborators.probedPaths b
      let r := (analyzeBranch b none a).1
      (P = [] → r = Report.empty (some b.id) a.similarity) ∧
      (∀ e, (constructedSeed b a).1 = .error e → r = Report.empty (some b.id) a.similarity) ∧
      ∀ seed m, (constructedSeed b a).1 = .ok (seed, m) →
        BlockLayout b a.similarity seed.test m a.config.trials.toNat P r := by
  intro an s a b
  have hT : 1 ≤ a.config.trials := by decide
  have hP : (a.collaborators.probedPaths b).length < UInt64.size := by decide
  exact ⟨hT, hP, probed_paths_in_blocks b a hT hP⟩

end Analyzer

end BranchSensitivity

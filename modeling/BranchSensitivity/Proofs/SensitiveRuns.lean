import BranchSensitivity.Proofs.Branch

/-!
# Sensitive trials continue a run

A trial counts as sensitive only together with the trial right before it, and only when the two
are of one group. So a record that opens a maximal run of one group (the first record, or one
whose predecessor is of another group) never counts, and the count is at most the number of
records that open no run:

    sensitiveCount rs = #{i | countedAt rs i}      opensRun gs i → countedAt rs i = false
    r.sensitivityCount ≤ r.len - r.groupCount

In the reports of the analyzer every trial `0` opens a run: a probe is one run of trials
`0, 1, …`, and a merge places the other report's trials past the seam, where the group changes
while no group wraps (`Report.MergeFits`). A branch report merges one block per probed path, of
groups `0, 1, …`, which wraps nothing while there are fewer than `2 ^ 64` paths. So the first
trial of a probed path never counts. A merge that wraps can join the other report's trial `0` to
the last run before the seam, where it counts (`merged_trial_zero_counts_at_largest_group`).
-/

namespace BranchSensitivity

/-! ## Counting along the positions of the records -/

/-- Record `i` counts as sensitive: it has a record before it, and the two form a sensitive
pair. -/
def countedAt (rs : List ObservationRecord) : Nat → Bool
  | 0 => false
  | i + 1 => match rs[i]?, rs[i + 1]? with
    | some prev, some next => sensitivePair prev next
    | _, _ => false

/-- Position `i` opens a maximal run of equal groups: it is the first position, or the group
before it is another. -/
def opensRun (gs : List UInt64) : Nat → Bool
  | 0 => !gs.isEmpty
  | i + 1 => match gs[i]?, gs[i + 1]? with
    | some g, some h => g != h
    | _, _ => false

@[simp] theorem countedAt_zero (rs : List ObservationRecord) : countedAt rs 0 = false := rfl

@[simp] theorem countedAt_cons_cons_one (a b : ObservationRecord) (rs : List ObservationRecord) :
    countedAt (a :: b :: rs) 1 = sensitivePair a b := rfl

@[simp] theorem countedAt_cons_add_two (a : ObservationRecord) (rs : List ObservationRecord)
    (i : Nat) : countedAt (a :: rs) (i + 2) = countedAt rs (i + 1) := rfl

@[simp] theorem opensRun_zero (gs : List UInt64) : opensRun gs 0 = !gs.isEmpty := rfl

@[simp] theorem opensRun_cons_cons_one (g h : UInt64) (gs : List UInt64) :
    opensRun (g :: h :: gs) 1 = (g != h) := rfl

@[simp] theorem opensRun_cons_add_two (g : UInt64) (gs : List UInt64) (i : Nat) :
    opensRun (g :: gs) (i + 2) = opensRun gs (i + 1) := rfl

/-- Counting over the positions of one more item: the first position, then the others moved one
down. -/
theorem countP_range_succ_front (p : Nat → Bool) (n : Nat) :
    (List.range (n + 1)).countP p =
      (if p 0 then 1 else 0) + (List.range n).countP (fun i => p (i + 1)) := by
  rw [List.range_succ_eq_map, List.countP_cons, List.countP_map]
  simp only [Function.comp_def, Nat.succ_eq_add_one]
  omega

/-- The sensitive count counts exactly the records that count as sensitive. -/
theorem sensitiveCount_eq_countP (rs : List ObservationRecord) :
    sensitiveCount rs = (List.range rs.length).countP (countedAt rs) := by
  fun_induction sensitiveCount rs with
  | case1 a b rest ih =>
    rw [ih]
    simp [countP_range_succ_front]
  | case2 rs h =>
    -- fewer than two records: no pair
    rcases rs with _ | ⟨a, _ | ⟨b, rest⟩⟩
    · rfl
    · rfl
    · exact absurd rfl (h a b rest)

/-- The run count counts exactly the positions that open a run. -/
theorem runCount_eq_countP (gs : List UInt64) :
    runCount gs = (List.range gs.length).countP (opensRun gs) := by
  fun_induction runCount gs with
  | case1 => rfl
  | case2 g => rfl
  | case3 g h rest ih =>
    rw [ih]
    simp [countP_range_succ_front]
    omega

/-- A record that opens a run never counts as sensitive: its predecessor, if any, is of another
group. -/
theorem countedAt_of_opensRun {rs : List ObservationRecord} {i : Nat}
    (h : opensRun (rs.map (·.group)) i = true) : countedAt rs i = false := by
  cases i with
  | zero => rfl
  | succ i =>
    rw [opensRun, List.getElem?_map, List.getElem?_map] at h
    rw [countedAt]
    cases hp : rs[i]? with
    | none => rfl
    | some prev =>
      cases hn : rs[i + 1]? with
      | none => rfl
      | some next =>
        rw [hp, hn] at h
        exact sensitivePair_of_group_ne (by simpa using h)

/-- The records that count and those that open a run are apart, so together they are at most
all records. -/
theorem sensitiveCount_add_runCount_le (rs : List ObservationRecord) :
    sensitiveCount rs + runCount (rs.map (·.group)) ≤ rs.length := by
  rw [sensitiveCount_eq_countP, runCount_eq_countP, List.length_map]
  have hle : (List.range rs.length).countP (countedAt rs) ≤
      (List.range rs.length).countP (fun i => !opensRun (rs.map (·.group)) i) :=
    List.countP_mono_left fun i _ hc => by
      cases ho : opensRun (rs.map (·.group)) i
      · rfl
      · rw [countedAt_of_opensRun ho] at hc
        cases hc
  have hsplit := List.length_eq_countP_add_countP (opensRun (rs.map (·.group)))
    (l := List.range rs.length)
  simp only [List.length_range, Bool.not_eq_true, Bool.decide_eq_false] at hsplit
  omega

/-- Some records make at least one run. -/
theorem runCount_pos {rs : List ObservationRecord} (h : rs ≠ []) :
    0 < runCount (rs.map (·.group)) := by
  obtain ⟨r, rest, rfl⟩ := List.exists_cons_of_ne_nil h
  rw [runCount_eq_countP, List.countP_pos_iff]
  exact ⟨0, List.mem_range.2 (by simp), rfl⟩

/-! ## Runs across a merge -/

theorem opensRun_append_left {gs : List UInt64} (hs : List UInt64) {i : Nat} (hi : i < gs.length) :
    opensRun (gs ++ hs) i = opensRun gs i := by
  cases i with
  | zero =>
    cases gs with
    | nil => simp at hi
    | cons g gs => rfl
  | succ i =>
    simp only [opensRun, List.getElem?_append_left (Nat.lt_of_succ_lt hi),
      List.getElem?_append_left hi]

/-- After a seam where the groups differ, the second stretch opens its runs where it did on its
own. -/
theorem opensRun_append_right {gs hs : List UInt64}
    (hseam : ∀ g ∈ gs.getLast?, ∀ h ∈ hs.head?, g ≠ h) (j : Nat) :
    opensRun (gs ++ hs) (gs.length + j) = opensRun hs j := by
  cases j with
  | zero =>
    -- the first group of `hs` against the last of `gs`
    rcases List.eq_nil_or_concat gs with rfl | ⟨gs', g, rfl⟩
    · rfl
    · cases hs with
      | nil => simp [opensRun]
      | cons h hs =>
        have hne : g ≠ h := hseam g (by simp) h (by simp)
        simp [opensRun, hne]
  | succ j =>
    rw [← Nat.add_assoc, opensRun, opensRun, List.getElem?_append_right (by omega),
      List.getElem?_append_right (by omega), Nat.add_sub_cancel_left,
      show gs.length + j + 1 - gs.length = j + 1 by omega]

/-- Shifting all groups by one amount keeps where runs open, even when it wraps. -/
theorem opensRun_map_add (k : UInt64) (gs : List UInt64) (j : Nat) :
    opensRun (gs.map (· + k)) j = opensRun gs j := by
  cases j with
  | zero => simp
  | succ j =>
    simp only [opensRun, List.getElem?_map]
    cases gs[j]? <;> cases gs[j + 1]?
    case some.some g h => simp only [Option.map_some, bne, add_beq_add]
    all_goals rfl

/-! ## Trial `0` opens a run in the reports of the analyzer -/

/-- Every record of trial `0` opens a run of its group. -/
def TrialZeroOpensRun (rs : List ObservationRecord) : Prop :=
  ∀ i rec, rs[i]? = some rec → rec.trial = 0 → opensRun (rs.map (·.group)) i = true

namespace TrialZeroOpensRun

theorem nil : TrialZeroOpensRun [] := fun i rec h => by simp at h

/-- A merge that wraps no group keeps trial `0` at the head of its runs: the first report's
records keep their neighbours, and the other's come after the seam with their groups shifted
alike. -/
theorem merge {a b : Report} (hfit : a.MergeFits b) (ha : TrialZeroOpensRun a.records)
    (hb : TrialZeroOpensRun b.records) : TrialZeroOpensRun (a.merge b).records := by
  intro i rec hrec htrial
  rw [Report.merge_records] at hrec ⊢
  rw [List.map_append]
  rcases Nat.lt_or_ge i a.records.length with hi | hi
  · rw [List.getElem?_append_left hi] at hrec
    rw [opensRun_append_left _ (by simpa using hi)]
    exact ha i rec hrec htrial
  · obtain ⟨j, rfl⟩ := Nat.exists_eq_add_of_le hi
    rw [List.getElem?_append_right hi, Nat.add_sub_cancel_left, List.getElem?_map] at hrec
    obtain ⟨rec', hrec', rfl⟩ := Option.map_eq_some_iff.1 hrec
    rw [← List.length_map (f := (·.group)), opensRun_append_right (Report.merge_group_seam hfit),
      map_group_shift, opensRun_map_add]
    exact hb j rec' hrec' htrial

/-- Merging a block of group zero after records of groups below `k`, where `k + 1` fits a word,
wraps nothing: trial `0` stays at the head of its runs and the groups stay below `k + 1`. -/
theorem merge_block {acc part : Report} {k : Nat} (hk : k + 1 < UInt64.size)
    (hacc : TrialZeroOpensRun acc.records) (hlt : ∀ x ∈ acc.records, x.group.toNat < k)
    (hpart : TrialZeroOpensRun part.records) (hzero : ∀ y ∈ part.records, y.group = 0) :
    TrialZeroOpensRun (acc.merge part).records ∧
      ∀ x ∈ (acc.merge part).records, x.group.toNat < k + 1 := by
  have hfit : acc.MergeFits part := fun x hx y hy => by
    have := hlt x hx
    rw [hzero y hy]
    simp only [UInt64.toNat_zero]
    omega
  refine ⟨hacc.merge hfit hpart, fun x hx => ?_⟩
  rw [Report.merge_records, List.mem_append] at hx
  rcases hx with hx | hx
  · have := hlt x hx
    omega
  · -- a shifted record lands at the next group, at most `k`
    obtain ⟨y, hy, rfl⟩ := List.mem_map.1 hx
    have hnext : acc.nextGroup.toNat ≤ k := Report.nextGroup_toNat_le
      (fun x hx => by have := hlt x hx; omega) fun x hx => hlt x hx
    rw [ObservationRecord.shift_group, (hfit.shift_group hy).1, hzero y hy]
    simp only [UInt64.toNat_zero]
    omega

end TrialZeroOpensRun

namespace TrialBlock

variable {roots : List RootVariable} {sites : List Instruction} {seed : TestCase} {m : CodeMap}
  {g T : Nat} {rs : List ObservationRecord}

/-- In a block of trials the record at position `i` is trial `i`, so trial `0` is the first. -/
theorem trialZeroOpensRun (h : TrialBlock roots sites seed m g T rs) : TrialZeroOpensRun rs := by
  intro i rec hrec htrial
  obtain rfl : i = 0 := (h.2 i rec hrec).trial.symm.trans (by rw [htrial]; rfl)
  cases rs with
  | nil => simp at hrec
  | cons r rest => rfl

theorem group_eq_zero (h : TrialBlock roots sites seed m 0 T rs) {rec : ObservationRecord}
    (hrec : rec ∈ rs) : rec.group = 0 :=
  UInt64.toNat_inj.1 (h.group_toNat hrec)

end TrialBlock

namespace Analyzer

variable {α φ ψ σ ρ : Type} (branch : Branch) (roots : List RootVariable)
  (sites : List Instruction)

theorem analyzeWithTrials_trialZeroOpensRun (seed? : Option Chromosome) (T : UInt64)
    (a : Analyzer α φ ψ σ ρ) :
    TrialZeroOpensRun (analyzeWithTrials branch roots sites seed? T a).1.records := by
  simp only [analyzeWithTrials, bind, StateT.bind, get, getThe, MonadStateOf.get, StateT.get,
    pure]
  cases seed?.filter (a.callsTarget ·.test) with
  | some c =>
    simp only [StateT.bind, StateT.pure]
    rcases construct c.test branch a with ⟨⟨t, m'⟩, a₁⟩
    exact (analyzePrepared_report branch roots sites _ m' T a₁).2.2.2.trialZeroOpensRun
  | none =>
    simp only [StateT.bind]
    rcases constructedSeed branch a with ⟨res, a₁⟩
    rcases res with e | ⟨c, m'⟩
    · exact TrialZeroOpensRun.nil
    · exact (analyzePrepared_report branch roots sites c m' T a₁).2.2.2.trialZeroOpensRun

theorem analyze_trialZeroOpensRun (seed? : Option Chromosome) (a : Analyzer α φ ψ σ ρ) :
    TrialZeroOpensRun (analyze branch roots sites seed? a).1.records :=
  analyzeWithTrials_trialZeroOpensRun branch roots sites seed? a.config.trials a

theorem analyzePath_trialZeroOpensRun (p : ComputationPath) (a : Analyzer α φ ψ σ ρ) :
    TrialZeroOpensRun (analyzePath p a).1.records := by
  simp only [analyzePath]
  cases p.root? with
  | none => exact TrialZeroOpensRun.nil
  | some root => exact analyze_trialZeroOpensRun p.branch [root] [p.tail] none a

/-- Probing paths after a report without records keeps trial `0` at the head of its runs, while
the rooted paths number fewer than `2 ^ 64`. -/
theorem probePaths_trialZeroOpensRun (seed : Chromosome) (m : CodeMap)
    (paths : List ComputationPath) (hP : (paths.filter (·.root?.isSome)).length < UInt64.size)
    (merged : Report) (hmerged : merged.records = []) (s : Analyzer α φ ψ σ ρ) :
    TrialZeroOpensRun (probePaths branch seed m paths merged s).1.records := by
  -- the fold keeps the groups below the number of rooted paths folded so far
  let I : List ComputationPath → Report → Analyzer α φ ψ σ ρ → Prop := fun pre acc _ =>
    (pre.filter (·.root?.isSome)).length < UInt64.size →
      TrialZeroOpensRun acc.records ∧
        ∀ x ∈ acc.records, x.group.toNat < (pre.filter (·.root?.isSome)).length
  have hinit : I [] merged s := fun _ => by
    rw [hmerged]
    exact ⟨TrialZeroOpensRun.nil, by simp⟩
  refine (foldlM_run I ?_ _ _ s hinit hP).1
  intro pre p acc s hI
  simp only [I]
  cases hroot : p.root? with
  | none =>
    have hkeep : (pre ++ [p]).filter (·.root?.isSome) = pre.filter (·.root?.isSome) := by
      simp [hroot]
    rw [hkeep]
    exact hI
  | some root =>
    simp only [StateT.bind, get, getThe, MonadStateOf.get, StateT.get, StateT.pure, pure, bind]
    have hblock :=
      (analyzePrepared_report branch [root] [p.tail] seed m s.config.trials s).2.2.2
    rcases hpart : analyzePrepared branch [root] [p.tail] seed m s.config.trials s with
      ⟨part, s'⟩
    rw [hpart] at hblock
    have hnext : (pre ++ [p]).filter (·.root?.isSome) = pre.filter (·.root?.isSome) ++ [p] := by
      simp [hroot]
    rw [hnext, List.length_append, List.length_singleton]
    intro hfits
    obtain ⟨hacc, hlt⟩ := hI (by omega)
    exact TrialZeroOpensRun.merge_block hfits hacc hlt hblock.trialZeroOpensRun
      fun y hy => hblock.group_eq_zero hy

/-- Analyzing a branch along one given path keeps trial `0` at the head of its runs. -/
theorem analyzeBranch_path_trialZeroOpensRun (p : ComputationPath) (a : Analyzer α φ ψ σ ρ) :
    TrialZeroOpensRun (analyzeBranch branch (some p) a).1.records := by
  simp only [analyzeBranch, bind, StateT.bind, get, getThe, MonadStateOf.get, StateT.get, pure]
  split
  · exact TrialZeroOpensRun.nil
  · simp only [StateT.bind]
    rcases constructedSeed branch a with ⟨res, a₀⟩
    rcases res with e | ⟨seed, m⟩
    · exact TrialZeroOpensRun.nil
    · exact probePaths_trialZeroOpensRun branch seed m [p]
        ((List.length_filter_le _ _).trans_lt (by rw [List.length_singleton]; decide)) _ rfl a₀

/-- Analyzing a branch along all its paths keeps trial `0` at the head of its runs, while the
probed paths number fewer than `2 ^ 64`. -/
theorem analyzeBranch_trialZeroOpensRun (a : Analyzer α φ ψ σ ρ)
    (hP : (a.collaborators.probedPaths branch).length < UInt64.size) :
    TrialZeroOpensRun (analyzeBranch branch none a).1.records := by
  rw [Collaborators.probedPaths_eq] at hP
  simp only [analyzeBranch, bind, StateT.bind, get, getThe, MonadStateOf.get, StateT.get, pure]
  split
  · exact TrialZeroOpensRun.nil
  · simp only [StateT.bind]
    rcases constructedSeed branch a with ⟨res, a₀⟩
    rcases res with e | ⟨seed, m⟩
    · exact TrialZeroOpensRun.nil
    · exact probePaths_trialZeroOpensRun branch seed m _ hP _ rfl a₀

end Analyzer

/-! ## The sensitivity count -/

/-- **The first trial of a run never counts as sensitive.** In every report the sensitivity
count counts the records that form a sensitive pair with the record before them, and a record
that opens a run of its group never does; so the count is at most the number of records less the
number of runs, and below the number of records when there are any. The reports of `analyze`,
`analyzePath` and `analyzeBranch` along one path open a run with every trial `0`, and so do those
of `analyzeBranch` along all the fewer than `2 ^ 64` paths it probes, and merges of such reports
that wrap no group; so the first trial of a probed path never counts. -/
theorem first_trials_never_sensitive {α φ ψ σ ρ : Type} :
    (∀ r : Report,
      r.sensitivityCount = (List.range r.len).countP (countedAt r.records) ∧
      (∀ i, opensRun (r.records.map (·.group)) i = true → countedAt r.records i = false) ∧
      r.sensitivityCount ≤ r.len - r.groupCount ∧
      (r.records ≠ [] → r.sensitivityCount < r.len)) ∧
    (∀ a b : Report, a.MergeFits b → TrialZeroOpensRun a.records → TrialZeroOpensRun b.records →
      TrialZeroOpensRun (a.merge b).records) ∧
    (∀ (a : Analyzer α φ ψ σ ρ) (b : Branch) (roots : List RootVariable) (sites : List Instruction)
      (seed? : Option Chromosome) (p : ComputationPath),
      ∀ r ∈ [(Analyzer.analyze b roots sites seed? a).1, (Analyzer.analyzeBranch b (some p) a).1,
          (Analyzer.analyzePath p a).1],
        TrialZeroOpensRun r.records ∧
        ∀ i rec, r.records[i]? = some rec → rec.trial = 0 → countedAt r.records i = false) ∧
    (∀ (a : Analyzer α φ ψ σ ρ) (b : Branch),
      (a.collaborators.probedPaths b).length < UInt64.size →
        let r := (Analyzer.analyzeBranch b none a).1
        TrialZeroOpensRun r.records ∧
        ∀ i rec, r.records[i]? = some rec → rec.trial = 0 → countedAt r.records i = false) := by
  refine ⟨fun r => ?_, fun a b hfit => TrialZeroOpensRun.merge hfit, ?_, ?_⟩
  · have hbound := sensitiveCount_add_runCount_le r.records
    refine ⟨sensitiveCount_eq_countP r.records, fun i => countedAt_of_opensRun, ?_, fun h => ?_⟩
    · simp only [Report.sensitivityCount, Report.len, Report.groupCount]
      omega
    · have hpos := runCount_pos h
      simp only [Report.sensitivityCount, Report.len]
      omega
  · intro a b roots sites seed? p r hr
    -- each of these reports opens a run with every trial `0`
    have hopens : TrialZeroOpensRun r.records := by
      simp only [List.mem_cons, List.not_mem_nil, or_false] at hr
      rcases hr with rfl | rfl | rfl
      · exact Analyzer.analyze_trialZeroOpensRun b roots sites seed? a
      · exact Analyzer.analyzeBranch_path_trialZeroOpensRun b p a
      · exact Analyzer.analyzePath_trialZeroOpensRun p a
    exact ⟨hopens, fun i rec hrec htrial => countedAt_of_opensRun (hopens i rec hrec htrial)⟩
  · intro a b hP r
    have hopens := Analyzer.analyzeBranch_trialZeroOpensRun b a hP
    exact ⟨hopens, fun i rec hrec htrial => countedAt_of_opensRun (hopens i rec hrec htrial)⟩

/-- One trial `0` of the largest group on each side: each report opens its run with it, but the
merge wraps the second to the first one's group, and it counts. -/
theorem merged_trial_zero_counts_at_largest_group :
    let trialOf (v : Int32) : ObservationRecord :=
      ⟨0, 0xFFFFFFFFFFFFFFFF, { primitives := [(0, .int v)] }, [("site", [.int v])]⟩
    let a : Report := { branch := some 2, records := [trialOf 3], similarity := .default }
    let b : Report := { branch := some 2, records := [trialOf 4], similarity := .default }
    TrialZeroOpensRun a.records ∧ TrialZeroOpensRun b.records ∧
      (a.merge b).records[1]?.map (·.trial) = some 0 ∧ countedAt (a.merge b).records 1 = true ∧
      (a.merge b).sensitivityCount = 1 := by
  intro trialOf a b
  -- a single record is trial `0` at position `0`, the head of its run
  have hsingle : ∀ x : ObservationRecord, TrialZeroOpensRun [x] := by
    intro x i rec hrec _
    cases i with
    | zero => rfl
    | succ i => simp at hrec
  exact ⟨hsingle _, hsingle _, by decide +kernel, by decide +kernel, by decide +kernel⟩

end BranchSensitivity

import BranchSensitivity.Report

/-!
# Merging reports

A merge appends the other report's records with their groups shifted by this report's *next
group*: one more than its largest group, zero when it has no records. Groups are 64-bit words, and
both the next group and the shift wrap around. A shift by one amount keeps which groups are equal,
wrapping or not; what a wrap can break is the seam between the two reports.

While no group wraps, that is while every group of the first report, plus one, plus every group of
the second stays below `2 ^ 64` (`MergeFits`), the shifted groups all lie above the groups already
there. The last record of the first report and the first shifted record are then never of one
group, no pair across the seam is sensitive and no run of groups joins across it, so every count
adds up:

    a.MergeFits b → (a.merge b).sensitivityCount = a.sensitivityCount + b.sensitivityCount
    a.MergeFits b → (a.merge b).groupCount = a.groupCount + b.groupCount

With one trial of the largest group `0xFFFFFFFFFFFFFFFF` on each side the next group is zero: after
the merge both trials are of one group, and the pair across the seam counts
(`merge_at_largest_group_joins_seam`).
-/

namespace BranchSensitivity

/-- The record with its group shifted up by `k`, wrapping around. -/
def ObservationRecord.shift (k : UInt64) (rec : ObservationRecord) : ObservationRecord :=
  { rec with group := rec.group + k }

namespace ObservationRecord

@[simp] theorem shift_group (k : UInt64) (rec : ObservationRecord) :
    (rec.shift k).group = rec.group + k :=
  rfl

@[simp] theorem shift_heads (k : UInt64) (rec : ObservationRecord) : (rec.shift k).heads = rec.heads :=
  rfl

@[simp] theorem shift_tails (k : UInt64) (rec : ObservationRecord) : (rec.shift k).tails = rec.tails :=
  rfl

@[simp] theorem shift_isValuePreserving (s : Similarity.Settings) (k : UInt64)
    (rec : ObservationRecord) : (rec.shift k).isValuePreserving s = rec.isValuePreserving s :=
  rfl

end ObservationRecord

/-! ## Counting along the records -/

/-- A shift by one amount keeps which groups are equal, even when it wraps. -/
theorem add_beq_add (g h k : UInt64) : (g + k == h + k) = (g == h) := by
  rw [Bool.eq_iff_iff, beq_iff_eq, beq_iff_eq, UInt64.add_left_inj]

/-- Shifting both records of a pair by one amount keeps whether it is sensitive: only the
equality of their groups is looked at. -/
@[simp] theorem sensitivePair_shift (k : UInt64) (prev next : ObservationRecord) :
    sensitivePair (prev.shift k) (next.shift k) = sensitivePair prev next := by
  simp only [sensitivePair, ObservationRecord.shift_group, ObservationRecord.shift_heads,
    ObservationRecord.shift_tails, add_beq_add]

/-- Records of different groups are never a sensitive pair. -/
theorem sensitivePair_of_group_ne {prev next : ObservationRecord} (h : prev.group ≠ next.group) :
    sensitivePair prev next = false := by
  simp [sensitivePair, h]

@[simp] theorem sensitiveCount_shift (k : UInt64) (rs : List ObservationRecord) :
    sensitiveCount (rs.map (·.shift k)) = sensitiveCount rs := by
  induction rs with
  | nil => rfl
  | cons r rest ih =>
    cases rest with
    | nil => rfl
    | cons r' rest => simp only [List.map_cons, sensitiveCount] at ih ⊢; rw [ih, sensitivePair_shift]

/-- Counting over two stretches of records adds up when the pair at the seam is of two groups. -/
theorem sensitiveCount_append {xs ys : List ObservationRecord}
    (hseam : ∀ x ∈ xs.getLast?, ∀ y ∈ ys.head?, x.group ≠ y.group) :
    sensitiveCount (xs ++ ys) = sensitiveCount xs + sensitiveCount ys := by
  induction xs with
  | nil => simp [sensitiveCount]
  | cons x rest ih =>
    cases rest with
    | nil =>
      -- the seam is the pair of `x` and the first of `ys`
      cases ys with
      | nil => rfl
      | cons y ys =>
        have hne : x.group ≠ y.group := hseam x (by simp) y (by simp)
        simp [sensitiveCount, sensitivePair_of_group_ne hne]
    | cons x' rest =>
      have ih' := ih fun z hz y hy => hseam z (by simpa using hz) y hy
      simp only [List.cons_append, sensitiveCount] at ih' ⊢
      rw [ih']
      omega

@[simp] theorem runCount_shift (k : UInt64) (gs : List UInt64) :
    runCount (gs.map (· + k)) = runCount gs := by
  induction gs with
  | nil => rfl
  | cons g rest ih =>
    cases rest with
    | nil => rfl
    | cons g' rest =>
      simp only [List.map_cons, runCount] at ih ⊢
      rw [ih, add_beq_add]

/-- Runs over two stretches of groups add up when the groups at the seam differ. -/
theorem runCount_append {gs hs : List UInt64} (hseam : ∀ g ∈ gs.getLast?, ∀ h ∈ hs.head?, g ≠ h) :
    runCount (gs ++ hs) = runCount gs + runCount hs := by
  induction gs with
  | nil => simp [runCount]
  | cons g rest ih =>
    cases rest with
    | nil =>
      cases hs with
      | nil => rfl
      | cons h hs =>
        have hne : g ≠ h := hseam g (by simp) h (by simp)
        simp [runCount, hne]
    | cons g' rest =>
      have ih' := ih fun z hz h hh => hseam z (by simpa using hz) h hh
      simp only [List.cons_append, runCount] at ih' ⊢
      rw [ih']
      omega

@[simp] theorem map_group_shift (k : UInt64) (rs : List ObservationRecord) :
    (rs.map (·.shift k)).map (·.group) = (rs.map (·.group)).map (· + k) := by
  simp [Function.comp_def]

/-! ## The next group, read as a number -/

namespace UInt64

/-- The larger of two words is the larger of their numbers. -/
theorem toNat_max (a b : UInt64) : (max a b).toNat = max a.toNat b.toNat := by
  show (if a ≤ b then b else a).toNat = _
  by_cases hab : a ≤ b
  · rw [if_pos hab]
    rw [UInt64.le_iff_toNat_le] at hab
    omega
  · rw [if_neg hab]
    rw [UInt64.le_iff_toNat_le] at hab
    omega

/-- A sum below `2 ^ 64` does not wrap. -/
theorem toNat_add_of_lt {a b : UInt64} (h : a.toNat + b.toNat < UInt64.size) :
    (a + b).toNat = a.toNat + b.toNat := by
  rw [UInt64.toNat_add]
  exact Nat.mod_eq_of_lt h

end UInt64

/-- The largest of numbers each at most `B` is at most `B`. -/
theorem foldl_max_le {B : Nat} : ∀ (l : List Nat) (c : Nat), c ≤ B → (∀ n ∈ l, n ≤ B) →
    l.foldl max c ≤ B := by
  intro l
  induction l with
  | nil => intro c hc _; exact hc
  | cons n rest ih =>
    intro c hc hl
    exact ih (max c n) (Nat.max_le.2 ⟨hc, hl n (by simp)⟩) fun m hm => hl m (by simp [hm])

namespace Report

theorem merge_records (a b : Report) :
    (a.merge b).records = a.records ++ b.records.map (·.shift a.nextGroup) :=
  rfl

/-- Without a trial of the largest group, the next group is one more than the largest group,
exactly. -/
theorem nextGroup_toNat {r : Report} (h : ∀ x ∈ r.records, x.group.toNat + 1 < UInt64.size) :
    r.nextGroup.toNat = (r.records.map (·.group.toNat + 1)).foldl max 0 := by
  -- the fold is carried along with its accumulator, read as a number
  suffices hfold : ∀ (rs : List ObservationRecord) (c : UInt64),
      (∀ x ∈ rs, x.group.toNat + 1 < UInt64.size) →
      ((rs.map (·.group + 1)).foldl max c).toNat = (rs.map (·.group.toNat + 1)).foldl max c.toNat by
    exact hfold r.records 0 h
  intro rs
  induction rs with
  | nil => intro c _; rfl
  | cons x rest ih =>
    intro c hrs
    have hx : (x.group + 1).toNat = x.group.toNat + 1 :=
      UInt64.toNat_add_of_lt (hrs x (by simp))
    simp only [List.map_cons, List.foldl_cons]
    rw [ih _ fun y hy => hrs y (by simp [hy]), UInt64.toNat_max, hx]

theorem group_lt_nextGroup {r : Report} (h : ∀ x ∈ r.records, x.group.toNat + 1 < UInt64.size)
    {rec : ObservationRecord} (hrec : rec ∈ r.records) : rec.group.toNat < r.nextGroup.toNat := by
  have hmem : rec.group.toNat + 1 ∈ r.records.map (·.group.toNat + 1) := List.mem_map_of_mem hrec
  have := List.le_max?_getD_of_mem (k := 0) hmem
  rw [nextGroup_toNat h, List.foldl_max]
  omega

/-- The next group is at most `B` when every group, plus one, is. -/
theorem nextGroup_toNat_le {r : Report} {B : Nat}
    (h : ∀ x ∈ r.records, x.group.toNat + 1 < UInt64.size)
    (hB : ∀ x ∈ r.records, x.group.toNat + 1 ≤ B) : r.nextGroup.toNat ≤ B := by
  rw [nextGroup_toNat h]
  refine foldl_max_le _ 0 (Nat.zero_le B) fun n hn => ?_
  obtain ⟨x, hx, rfl⟩ := List.mem_map.1 hn
  exact hB x hx

/-! ## Merges that wrap no group -/

/-- Merging `b` after `a` wraps no group: every group of `a`, plus one, plus every group of `b`
stays below `2 ^ 64`. -/
def MergeFits (a b : Report) : Prop :=
  ∀ x ∈ a.records, ∀ y ∈ b.records, x.group.toNat + 1 + y.group.toNat < UInt64.size

namespace MergeFits

variable {a b : Report}

/-- A shifted group of `b` is its group plus the next group of `a`, without wrapping, and lies
above every group of `a`. -/
theorem shift_group (h : a.MergeFits b) {y : ObservationRecord} (hy : y ∈ b.records) :
    (y.group + a.nextGroup).toNat = y.group.toNat + a.nextGroup.toNat ∧
      ∀ x ∈ a.records, x.group.toNat < (y.group + a.nextGroup).toNat := by
  have hplus : ∀ x ∈ a.records, x.group.toNat + 1 < UInt64.size := fun x hx => by
    have := h x hx y hy
    omega
  have hle : a.nextGroup.toNat ≤ UInt64.size - 1 - y.group.toNat :=
    nextGroup_toNat_le hplus fun x hx => by
      have := h x hx y hy
      omega
  have hsum : (y.group + a.nextGroup).toNat = y.group.toNat + a.nextGroup.toNat :=
    UInt64.toNat_add_of_lt (by have := UInt64.toNat_lt_size y.group; omega)
  refine ⟨hsum, fun x hx => ?_⟩
  have := group_lt_nextGroup hplus hx
  omega

end MergeFits

/-! ## Counts of a merge -/

theorem len_merge (a b : Report) : (a.merge b).len = a.len + b.len := by
  simp [len, merge_records]

theorem valuePreservingCount_merge {a b : Report} (hs : a.similarity = b.similarity) :
    (a.merge b).valuePreservingCount = a.valuePreservingCount + b.valuePreservingCount := by
  simp only [valuePreservingCount, merge_records, List.countP_append, List.countP_map]
  -- the merge keeps the first report's settings, which are the second's too
  have hsim : (a.merge b).similarity = a.similarity := rfl
  simp [hsim, hs, Function.comp_def]

/-- The last record of the first report and the first shifted record are of different groups. -/
theorem merge_seam {a b : Report} (hfit : a.MergeFits b) :
    ∀ x ∈ a.records.getLast?, ∀ y ∈ (b.records.map (·.shift a.nextGroup)).head?,
      x.group ≠ y.group := by
  intro x hx y hy
  obtain ⟨y', hy', rfl⟩ : ∃ y' ∈ b.records, y'.shift a.nextGroup = y := by
    simpa using List.mem_of_mem_head? hy
  have hlt := (hfit.shift_group hy').2 x (List.mem_of_getLast? hx)
  intro heq
  rw [heq, ObservationRecord.shift_group] at hlt
  omega

theorem sensitivityCount_merge {a b : Report} (hfit : a.MergeFits b) :
    (a.merge b).sensitivityCount = a.sensitivityCount + b.sensitivityCount := by
  rw [sensitivityCount, merge_records, sensitiveCount_append (merge_seam hfit), sensitiveCount_shift]
  rfl

/-- The groups at the seam of a merge differ: the last group of the first report and the first
shifted group. -/
theorem merge_group_seam {a b : Report} (hfit : a.MergeFits b) :
    ∀ g ∈ (a.records.map (·.group)).getLast?,
      ∀ h ∈ ((b.records.map (·.shift a.nextGroup)).map (·.group)).head?, g ≠ h := by
  intro g hg h hh
  rw [List.getLast?_map] at hg
  rw [List.head?_map] at hh
  obtain ⟨x, hx, rfl⟩ : ∃ x ∈ a.records.getLast?, x.group = g := by simpa using hg
  obtain ⟨y, hy, rfl⟩ : ∃ y ∈ b.records.head?, y.group + a.nextGroup = h := by simpa using hh
  exact merge_seam hfit x hx (y.shift a.nextGroup) (by rw [List.head?_map, hy]; rfl)

theorem groupCount_merge {a b : Report} (hfit : a.MergeFits b) :
    (a.merge b).groupCount = a.groupCount + b.groupCount := by
  rw [groupCount, merge_records, List.map_append, runCount_append (merge_group_seam hfit),
    map_group_shift, runCount_shift]
  rfl

/-- The first record a merge adds sits right after the first report's records. -/
theorem merge_records_getElem?_len (a b : Report) :
    (a.merge b).records[a.len]? = (b.records.map (·.shift a.nextGroup)).head? := by
  rw [merge_records, len, List.getElem?_append_right (Nat.le_refl _), Nat.sub_self,
    List.head?_eq_getElem?]

/-- Group numbers that never decrease along each report never decrease along their merge, when
it wraps no group. -/
theorem merge_groups_sorted {a b : Report} (hfit : a.MergeFits b)
    (ha : (a.records.map (·.group)).Pairwise (· ≤ ·))
    (hb : (b.records.map (·.group)).Pairwise (· ≤ ·)) :
    ((a.merge b).records.map (·.group)).Pairwise (· ≤ ·) := by
  rw [merge_records, List.map_append, List.pairwise_append]
  refine ⟨ha, ?_, ?_⟩
  · -- one shift that wraps nothing keeps their order
    rw [List.map_map, List.pairwise_map]
    refine List.Pairwise.imp_of_mem (fun {y y'} hy hy' hle => ?_) (List.pairwise_map.1 hb)
    have h₁ := (hfit.shift_group hy).1
    have h₂ := (hfit.shift_group hy').1
    rw [UInt64.le_iff_toNat_le] at hle ⊢
    simp only [Function.comp_apply, ObservationRecord.shift_group, h₁, h₂]
    omega
  · -- every shifted group lies above every group of the first report
    intro g hg h hh
    obtain ⟨x, hx, rfl⟩ := List.mem_map.1 hg
    obtain ⟨y, hy, rfl⟩ := List.mem_map.1 hh
    obtain ⟨y', hy', rfl⟩ := List.mem_map.1 hy
    have := (hfit.shift_group hy').2 x hx
    rw [UInt64.le_iff_toNat_le]
    simp only [ObservationRecord.shift_group]
    omega

/-- **Merging adds up, while no group wraps.** Merging two reports with one similarity setting
adds their lengths and value preserving counts; when every group of the first, plus one, plus
every group of the second stays below `2 ^ 64`, it also adds their sensitivity counts and group
counts, the pair at the seam (the first report's last record and the record after it) is never
sensitive, and group numbers sorted along each report stay sorted along the merge. -/
theorem merge_counts_add (a b : Report) (hs : a.similarity = b.similarity)
    (hfit : a.MergeFits b) :
    (a.merge b).len = a.len + b.len ∧
    (a.merge b).valuePreservingCount = a.valuePreservingCount + b.valuePreservingCount ∧
    (a.merge b).sensitivityCount = a.sensitivityCount + b.sensitivityCount ∧
    (a.merge b).groupCount = a.groupCount + b.groupCount ∧
    (∀ x y, a.records.getLast? = some x → (a.merge b).records[a.len]? = some y →
      sensitivePair x y = false) ∧
    ((a.records.map (·.group)).Pairwise (· ≤ ·) → (b.records.map (·.group)).Pairwise (· ≤ ·) →
      ((a.merge b).records.map (·.group)).Pairwise (· ≤ ·)) := by
  refine ⟨len_merge a b, valuePreservingCount_merge hs, sensitivityCount_merge hfit,
    groupCount_merge hfit, ?_, merge_groups_sorted hfit⟩
  intro x y hx hy
  rw [merge_records_getElem?_len] at hy
  exact sensitivePair_of_group_ne (merge_seam hfit x hx y hy)

/-- Two reports of two trials each, one group apiece, merge under the default settings. -/
theorem merge_counts_add_two_groups :
    let trialOf (g : UInt64) (v : Int32) : ObservationRecord :=
      ⟨0, g, { primitives := [(0, .int v)] }, [("site", [.int v])]⟩
    let a : Report :=
      { branch := some 1, records := [trialOf 0 1, trialOf 0 2], similarity := .default }
    let b : Report :=
      { branch := some 2, records := [trialOf 0 3, trialOf 1 4], similarity := .default }
    a.similarity = b.similarity ∧ a.MergeFits b ∧
    (a.merge b).len = a.len + b.len ∧
    (a.merge b).valuePreservingCount = a.valuePreservingCount + b.valuePreservingCount ∧
    (a.merge b).sensitivityCount = a.sensitivityCount + b.sensitivityCount ∧
    (a.merge b).groupCount = a.groupCount + b.groupCount ∧
    (∀ x y, a.records.getLast? = some x → (a.merge b).records[a.len]? = some y →
      sensitivePair x y = false) ∧
    ((a.records.map (·.group)).Pairwise (· ≤ ·) → (b.records.map (·.group)).Pairwise (· ≤ ·) →
      ((a.merge b).records.map (·.group)).Pairwise (· ≤ ·)) := by
  intro trialOf a b
  have hfit : a.MergeFits b := by
    intro x hx y hy
    simp only [a, b, trialOf, List.mem_cons, List.not_mem_nil, or_false] at hx hy
    rcases hx with rfl | rfl <;> rcases hy with rfl | rfl <;> decide
  exact ⟨rfl, hfit, merge_counts_add a b rfl hfit⟩

/-- One trial of the largest group on each side: the next group wraps to zero, both trials are
of one group after the merge, and the pair across the seam, whose heads and tails differ, counts
as sensitive. The merge has one group, not two, and one sensitive trial, not none. -/
theorem merge_at_largest_group_joins_seam :
    let trialOf (v : Int32) : ObservationRecord :=
      ⟨0, 0xFFFFFFFFFFFFFFFF, { primitives := [(0, .int v)] }, [("site", [.int v])]⟩
    let a : Report := { branch := some 1, records := [trialOf 1], similarity := .default }
    let b : Report := { branch := some 1, records := [trialOf 2], similarity := .default }
    a.nextGroup = 0 ∧ a.groupCount = 1 ∧ b.groupCount = 1 ∧ (a.merge b).groupCount = 1 ∧
      a.sensitivityCount = 0 ∧ b.sensitivityCount = 0 ∧ (a.merge b).sensitivityCount = 1 := by
  decide +kernel

end Report

end BranchSensitivity

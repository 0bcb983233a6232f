import Mathlib.Tactic.Tauto
import BranchSensitivity.Fixture

/-!
# What an observed execution captures

An observed execution returns one sequence per site identity, in identity order, whatever the
sandbox and the fitness framework do. An identity one of whose sites has a class that failed a
load attempt during the execution holds nothing. Every other identity holds the values the
evaluation probed there, in the order they were probed, or nothing when the chromosome has no
goal for the branch. Without a goal the chromosome keeps its test, its cached values and its
change mark, and gains at most the goal and the loading context; with one it caches the fitness
the evaluation returned.

    (site.id, []) ∈ (h.observe s f branch sites c).1      when the class of the site failed

Sites are told apart by identity, and two sites of different classes can share one: the class
`a.b` with method `c` and the class `a` with method `b.c` both give `a.b.c:0 IRETURN`. A failure
of either class then empties what was probed at the other.
-/

namespace BranchSensitivity

/-! ## The sequences of a buffer -/

namespace ObservationBuffer

theorem mem_keys_addSite (id : String) (l : List (String × List Value)) (k : String) :
    k ∈ (addSite id l).map (·.1) ↔ k = id ∨ k ∈ l.map (·.1) := by
  induction l with
  | nil => simp [addSite]
  | cons hd rest ih =>
    obtain ⟨k', vs⟩ := hd
    unfold addSite
    split
    · simp
    · split
      · rename_i heq
        have : id = k' := by simpa using heq
        subst this
        simp only [List.map_cons, List.mem_cons]
        constructor
        · exact .inr
        · rintro (rfl | h)
          · exact .inl rfl
          · exact h
      · simp only [List.map_cons, List.mem_cons, ih]
        tauto

theorem addSite_pairwise (id : String) {l : List (String × List Value)}
    (hl : l.Pairwise (·.1 < ·.1)) : (addSite id l).Pairwise (·.1 < ·.1) := by
  induction l with
  | nil => simp [addSite]
  | cons hd rest ih =>
    obtain ⟨k', vs⟩ := hd
    rw [List.pairwise_cons] at hl
    unfold addSite
    split
    · rename_i hlt
      refine List.Pairwise.cons (fun e he => ?_) (List.Pairwise.cons hl.1 hl.2)
      rcases List.mem_cons.1 he with rfl | he
      · exact hlt
      · exact String.lt_trans hlt (hl.1 e he)
    · split
      · exact List.Pairwise.cons hl.1 hl.2
      · rename_i hnlt hne
        -- the new identity goes after `k'`
        have hgt : k' < id := String.not_le.1 fun hle =>
          hne (by simp [String.le_antisymm hle (String.not_lt.1 hnlt)])
        refine List.Pairwise.cons (fun e he => ?_) (ih hl.2)
        have hmem : e.1 ∈ (addSite id rest).map (·.1) := List.mem_map_of_mem he
        rcases (mem_keys_addSite id rest e.1).1 hmem with heq | hmem
        · rw [heq]
          exact hgt
        · obtain ⟨e', he', hee⟩ := List.mem_map.1 hmem
          rw [← hee]
          exact hl.1 e' he'

/-- A sequence after adding a site is one that was there, or the empty one of the site. -/
theorem mem_addSite {id k : String} {vs : List Value} {l : List (String × List Value)}
    (h : (k, vs) ∈ addSite id l) : (k, vs) ∈ l ∨ (k = id ∧ vs = []) := by
  induction l with
  | nil => simp_all [addSite]
  | cons hd rest ih =>
    obtain ⟨k', vs'⟩ := hd
    unfold addSite at h
    split at h
    · rcases List.mem_cons.1 h with h | h
      · exact .inr (by simpa using h)
      · exact .inl h
    · split at h
      · exact .inl h
      · rcases List.mem_cons.1 h with h | h
        · exact .inl (h ▸ List.mem_cons_self)
        · exact (ih h).imp_left (List.mem_cons_of_mem _)

/-- The buffer for some sites holds each of their identities once, in increasing order. -/
theorem forSites_keys (sites : List Instruction) :
    (forSites sites).sites.Pairwise (·.1 < ·.1) ∧
      ∀ k, k ∈ (forSites sites).sites.map (·.1) ↔ ∃ s ∈ sites, s.id = k := by
  -- the fold adds the sites one by one to the identities already there
  have step : ∀ (l : List Instruction) (acc : List (String × List Value)),
      acc.Pairwise (·.1 < ·.1) →
      (l.foldl (fun acc s => addSite s.id acc) acc).Pairwise (·.1 < ·.1) ∧
        ∀ k, k ∈ (l.foldl (fun acc s => addSite s.id acc) acc).map (·.1) ↔
          k ∈ acc.map (·.1) ∨ ∃ s ∈ l, s.id = k := by
    intro l
    induction l with
    | nil => intro acc h; exact ⟨h, fun k => by simp⟩
    | cons s rest ih =>
      intro acc h
      obtain ⟨hsorted, hmem⟩ := ih (addSite s.id acc) (addSite_pairwise s.id h)
      refine ⟨hsorted, fun k => ?_⟩
      rw [List.foldl_cons, hmem, mem_keys_addSite]
      simp only [List.mem_cons, exists_eq_or_imp]
      constructor
      · rintro ((rfl | h) | h) <;> tauto
      · rintro (h | h | h) <;> tauto
  obtain ⟨hsorted, hmem⟩ := step sites [] List.Pairwise.nil
  exact ⟨hsorted, fun k => by simpa [forSites] using hmem k⟩

/-- The buffer for some sites holds an empty sequence under each of their identities and
nothing else. -/
theorem mem_forSites {sites : List Instruction} {k : String} {vs : List Value} :
    (k, vs) ∈ (forSites sites).sites ↔ (∃ s ∈ sites, s.id = k) ∧ vs = [] := by
  -- adding a site adds an empty sequence, so every sequence of the buffer is empty
  have hempty : ∀ e ∈ (forSites sites).sites, e.2 = [] := by
    unfold forSites
    exact List.foldlRecOn
      (motive := fun acc : List (String × List Value) => ∀ e ∈ acc, e.2 = [])
      _ _ (by simp) fun acc hacc s _ e he => by
        rcases mem_addSite (show (e.1, e.2) ∈ addSite s.id acc from he) with he | ⟨_, he⟩
        · exact hacc e he
        · exact he
  have hkeys := (forSites_keys sites).2 k
  constructor
  · intro hmem
    exact ⟨hkeys.1 (List.mem_map_of_mem (f := (·.1)) hmem), hempty _ hmem⟩
  · rintro ⟨hk, rfl⟩
    obtain ⟨⟨k', vs'⟩, he, hk'⟩ := List.mem_map.1 (hkeys.2 hk)
    obtain rfl : vs' = [] := hempty _ he
    obtain rfl : k' = k := hk'
    exact he

/-- Rewriting each sequence by its identity keeps the identities. -/
theorem mem_map_sequences {F : String × List Value → String × List Value}
    {g : String → List Value → List Value} (hF : ∀ k vs, F (k, vs) = (k, g k vs))
    {l : List (String × List Value)} {k : String} {vs : List Value} :
    (k, vs) ∈ l.map F ↔ ∃ vs₀, (k, vs₀) ∈ l ∧ vs = g k vs₀ := by
  simp only [List.mem_map]
  constructor
  · rintro ⟨⟨k', vs₀⟩, hmem, heq⟩
    rw [hF, Prod.mk.injEq] at heq
    obtain ⟨rfl, rfl⟩ := heq
    exact ⟨vs₀, hmem, rfl⟩
  · rintro ⟨vs₀, hmem, rfl⟩
    exact ⟨(k, vs₀), hmem, hF k vs₀⟩

theorem mem_record {b : ObservationBuffer} {site k : String} {v : Value} {vs : List Value} :
    (k, vs) ∈ (b.record site v).2.sites ↔
      ∃ vs₀, (k, vs₀) ∈ b.sites ∧ vs = if k = site then vs₀ ++ [v] else vs₀ := by
  unfold record
  split
  · refine mem_map_sequences (g := fun k' vs' => if k' = site then vs' ++ [v] else vs')
      fun k' vs' => ?_
    by_cases hk : k' = site <;> simp [hk]
  · rename_i hreg
    -- nothing is registered under `site`, so no sequence changes
    have hne : ∀ vs₀, (k, vs₀) ∈ b.sites → k ≠ site := by
      rintro vs₀ hmem rfl
      exact hreg (List.any_eq_true.2 ⟨_, hmem, by simp⟩)
    constructor
    · intro hmem
      exact ⟨vs, hmem, by rw [if_neg (hne vs hmem)]⟩
    · rintro ⟨vs₀, hmem, rfl⟩
      rwa [if_neg (hne vs₀ hmem)]

/-- Recording probes appends to each identity the values probed there, in order; probes at
identities that are not registered are dropped. -/
theorem mem_recordAll {b : ObservationBuffer} {probes : List (String × Value)} {k : String}
    {vs : List Value} :
    (k, vs) ∈ (b.recordAll probes).sites ↔
      ∃ vs₀, (k, vs₀) ∈ b.sites ∧ vs = vs₀ ++ (probes.filter (·.1 == k)).map (·.2) := by
  induction probes generalizing b vs with
  | nil => simp [recordAll]
  | cons p rest ih =>
    obtain ⟨site, v⟩ := p
    have hstep : b.recordAll ((site, v) :: rest) = (b.record site v).2.recordAll rest := rfl
    rw [hstep, ih]
    simp only [mem_record]
    -- the probe appends its value to its own identity only
    have hseq : ∀ vs₀ : List Value, (if k = site then vs₀ ++ [v] else vs₀) ++
        (rest.filter (·.1 == k)).map (·.2) =
          vs₀ ++ (((site, v) :: rest).filter (·.1 == k)).map (·.2) := by
      intro vs₀
      by_cases hk : k = site
      · subst hk
        simp
      · simp [hk, Ne.symm hk]
    constructor
    · rintro ⟨vs₁, ⟨vs₀, hmem, rfl⟩, rfl⟩
      exact ⟨vs₀, hmem, hseq vs₀⟩
    · rintro ⟨vs₀, hmem, rfl⟩
      exact ⟨_, ⟨vs₀, hmem, rfl⟩, (hseq vs₀).symm⟩

theorem mem_clearSite {b : ObservationBuffer} {site k : String} {vs : List Value} :
    (k, vs) ∈ (b.clearSite site).sites ↔
      ∃ vs₀, (k, vs₀) ∈ b.sites ∧ vs = if k = site then [] else vs₀ := by
  unfold clearSite
  refine mem_map_sequences (g := fun k' vs' => if k' = site then [] else vs') fun k' vs' => ?_
  by_cases hk : k' = site <;> simp [hk]

/-- Emptying the sites of a list empties exactly their identities. -/
theorem mem_clearSites {l : List Instruction} {b : ObservationBuffer} {k : String}
    {vs : List Value} :
    (k, vs) ∈ (l.foldl (fun b s => b.clearSite s.id) b).sites ↔
      ∃ vs₀, (k, vs₀) ∈ b.sites ∧ vs = if ∃ s ∈ l, s.id = k then [] else vs₀ := by
  induction l generalizing b with
  | nil => simp
  | cons s rest ih =>
    rw [List.foldl_cons, ih]
    simp only [mem_clearSite]
    -- emptying `s` and then the rest empties an identity that any of them has
    have hseq : ∀ vs₀ : List Value,
        (if ∃ s' ∈ rest, s'.id = k then [] else if k = s.id then [] else vs₀) =
          if ∃ s' ∈ s :: rest, s'.id = k then [] else vs₀ := by
      intro vs₀
      by_cases hk : s.id = k
      · simp [hk]
      · simp [hk, Ne.symm hk]
    constructor
    · rintro ⟨vs₁, ⟨vs₀, hmem, rfl⟩, rfl⟩
      exact ⟨vs₀, hmem, hseq vs₀⟩
    · rintro ⟨vs₀, hmem, rfl⟩
      exact ⟨_, ⟨vs₀, hmem, rfl⟩, (hseq vs₀).symm⟩

@[simp] theorem keys_record (b : ObservationBuffer) (site : String) (v : Value) :
    (b.record site v).2.sites.map (·.1) = b.sites.map (·.1) := by
  unfold record
  split
  · simp only [List.map_map]
    apply List.map_congr_left
    intro e _
    simp only [Function.comp_apply]
    split <;> rfl
  · rfl

@[simp] theorem keys_clearSite (b : ObservationBuffer) (site : String) :
    (b.clearSite site).sites.map (·.1) = b.sites.map (·.1) := by
  unfold clearSite
  simp only [List.map_map]
  apply List.map_congr_left
  intro e _
  simp only [Function.comp_apply]
  split <;> rfl

@[simp] theorem keys_recordAll (b : ObservationBuffer) (probes : List (String × Value)) :
    (b.recordAll probes).sites.map (·.1) = b.sites.map (·.1) := by
  unfold recordAll
  exact List.foldlRecOn
    (motive := fun b' : ObservationBuffer => b'.sites.map (·.1) = b.sites.map (·.1))
    _ _ rfl fun b' hb _ _ => by simpa using hb

@[simp] theorem keys_clearSites (l : List Instruction) (b : ObservationBuffer) :
    (l.foldl (fun b s => b.clearSite s.id) b).sites.map (·.1) = b.sites.map (·.1) :=
  List.foldlRecOn (motive := fun b' : ObservationBuffer => b'.sites.map (·.1) = b.sites.map (·.1))
    _ _ rfl fun b' hb _ _ => by simpa using hb

end ObservationBuffer

/-! ## The goals of a chromosome -/

namespace Chromosome

@[simp] theorem addFitness_test (c : Chromosome) (g : Goal) : (c.addFitness g).test = c.test := by
  unfold addFitness
  split <;> rfl

@[simp] theorem addFitness_changed (c : Chromosome) (g : Goal) :
    (c.addFitness g).changed = c.changed := by
  unfold addFitness
  split <;> rfl

/-- Attaching a goal keeps every entry, and adds one for the goal when it is new. -/
theorem addFitness_fitness (c : Chromosome) (g : Goal) :
    (c.addFitness g).fitness = c.fitness ∨ (c.addFitness g).fitness = c.fitness ++ [{ goal := g }] := by
  unfold addFitness
  split
  · exact .inl rfl
  · exact .inr rfl

@[simp] theorem findFitness?_bindLoader (c : Chromosome) (l : LoaderBinding) (b : Nat) :
    (c.bindLoader l).findFitness? b = c.findFitness? b := rfl

@[simp] theorem findFitness?_clearCachedResults (c : Chromosome) (b : Nat) :
    c.clearCachedResults.findFitness? b = c.findFitness? b := by
  simp only [findFitness?, clearCachedResults, List.find?_map, Option.map_map]
  rfl

/-- Finding by a test that an update keeps finds the updated entry. -/
theorem find?_modify_findIdx {α : Type} (p : α → Bool) (F : α → α) (hF : ∀ a, p (F a) = p a)
    (l : List α) : (l.modify (l.findIdx p) F).find? p = (l.find? p).map F := by
  induction l with
  | nil => rfl
  | cons a rest ih =>
    by_cases ha : p a
    · simp [List.findIdx_cons, ha, hF]
    · simp [List.findIdx_cons, ha, ih]

/-- Setting the value for a branch that has a goal caches it there. -/
theorem fitnessValue?_setFitnessValue {c : Chromosome} {b : Nat} {g : Goal}
    (hg : c.findFitness? b = some g) (v : Float) :
    (c.setFitnessValue b v).fitnessValue? b = some v := by
  obtain ⟨e, he, -⟩ := Option.map_eq_some_iff.1 hg
  simp only [fitnessValue?, setFitnessValue]
  rw [find?_modify_findIdx _ (fun e : FitnessEntry => { e with value := some v }) (fun _ => rfl),
    he]
  rfl

end Chromosome

/-! ## Loading the classes of the sites -/

theorem mem_insertSortedString {x s : String} {l : List String} :
    x ∈ insertSortedString s l ↔ x = s ∨ x ∈ l := by
  induction l with
  | nil => simp [insertSortedString]
  | cons y rest ih =>
    unfold insertSortedString
    split
    · simp
    · split
      · rename_i heq
        have : s = y := by simpa using heq
        subst this
        simp
      · simp only [List.mem_cons, ih]
        tauto

namespace Harness

variable {σ φ : Type} (h : Harness σ φ)

/-- One site of the loading loop: nothing happens when its class is loaded, otherwise the sandbox
state and the context are those after the attempt. -/
def loadStep (s : σ) (l : LoaderBinding) (site : Instruction) : σ × LoaderBinding :=
  if l.isLoaded site.className then (s, l)
  else ((h.sandbox.loadClass s l site.className).2.2, (h.sandbox.loadClass s l site.className).2.1)

/-- Loading the classes of the sites, from sandbox state `s` and context `l`, makes an attempt
at the class `C` that fails: at a site of class `C`, reached while `C` is not loaded. -/
inductive LoadFails : σ → LoaderBinding → List Instruction → String → Prop
  | here {s l site rest e} : l.isLoaded site.className = false →
      (h.sandbox.loadClass s l site.className).1 = .error e →
      LoadFails s l (site :: rest) site.className
  | later {s l site rest C} : LoadFails (h.loadStep s l site).1 (h.loadStep s l site).2 rest C →
      LoadFails s l (site :: rest) C

theorem not_loadFails_nil (s : σ) (l : LoaderBinding) (C : String) : ¬ h.LoadFails s l [] C := by
  intro hf
  cases hf

theorem loadFails_cons_iff {s : σ} {l : LoaderBinding} {site : Instruction}
    {rest : List Instruction} {C : String} :
    h.LoadFails s l (site :: rest) C ↔
      (site.className = C ∧ l.isLoaded C = false ∧
        ∃ e, (h.sandbox.loadClass s l C).1 = .error e) ∨
      h.LoadFails (h.loadStep s l site).1 (h.loadStep s l site).2 rest C := by
  constructor
  · intro hf
    cases hf with
    | here hl he => exact .inl ⟨rfl, hl, _, he⟩
    | later hf => exact .inr hf
  · rintro (⟨rfl, hl, e, he⟩ | hf)
    · exact .here hl he
    · exact .later hf

/-- The loop notes a class as failed exactly when an attempt at it fails. -/
theorem mem_loadSiteClasses (s : σ) (l : LoaderBinding) (failed : List String)
    (sites : List Instruction) (C : String) :
    C ∈ (h.loadSiteClasses s l failed sites).2.2 ↔ C ∈ failed ∨ h.LoadFails s l sites C := by
  induction sites generalizing s l failed with
  | nil => simp [loadSiteClasses, not_loadFails_nil]
  | cons site rest ih =>
    rw [loadFails_cons_iff]
    unfold loadSiteClasses
    by_cases hl : l.isLoaded site.className
    · -- a loaded class is not attempted
      have hstep : h.loadStep s l site = (s, l) := by simp [loadStep, hl]
      rw [if_pos hl, ih, hstep]
      constructor
      · rintro (h₁ | h₁)
        · exact .inl h₁
        · exact .inr (.inr h₁)
      · rintro (h₁ | ⟨rfl, hC, -⟩ | h₁)
        · exact .inl h₁
        · rw [hl] at hC
          cases hC
        · exact .inr h₁
    · have hstep : h.loadStep s l site =
          ((h.sandbox.loadClass s l site.className).2.2,
            (h.sandbox.loadClass s l site.className).2.1) := by simp [loadStep, hl]
      rw [if_neg hl, hstep]
      rcases hr : h.sandbox.loadClass s l site.className with ⟨r, l', s'⟩
      cases r with
      | ok u =>
        simp only [ih]
        constructor
        · rintro (h₁ | h₁)
          · exact .inl h₁
          · exact .inr (.inr h₁)
        · rintro (h₁ | ⟨rfl, -, e, he⟩ | h₁)
          · exact .inl h₁
          · rw [hr] at he
            cases he
          · exact .inr h₁
      | error e =>
        simp only [ih, mem_insertSortedString]
        constructor
        · rintro ((rfl | h₁) | h₁)
          · exact .inr (.inl ⟨rfl, by simpa using hl, e, by rw [hr]⟩)
          · exact .inl h₁
          · exact .inr (.inr h₁)
        · rintro (h₁ | ⟨rfl, -, -⟩ | h₁)
          · exact .inl (.inr h₁)
          · exact .inl (.inl rfl)
          · exact .inr h₁

/-- The classes noted as failed while preparing an execution are those an attempt at which
failed, from the context opened for the sites. -/
theorem mem_prepare (s : σ) (sites : List Instruction) (t : TestCase) (C : String) :
    C ∈ (h.prepare s sites t).2.2 ↔
      h.LoadFails (h.openLoader s sites t).1 (h.openLoader s sites t).2 sites C := by
  have hprep : h.prepare s sites t =
      h.loadSiteClasses (h.openLoader s sites t).1 (h.openLoader s sites t).2 [] sites := rfl
  rw [hprep, mem_loadSiteClasses]
  simp

/-! ## One observed execution -/

section Observe

variable (s : σ) (f : φ) (branch : Branch) (sites : List Instruction) (c : Chromosome)

theorem observe_of_findFitness?_none
    (hg : (c.addFitness (h.fitness.branchGoal f branch)).findFitness? branch.id = none) :
    h.observe s f branch sites c =
      ((ObservationBuffer.forSites sites).sites, (h.prepare s sites c.test).1, f,
        (c.addFitness (h.fitness.branchGoal f branch)).bindLoader (h.prepare s sites c.test).2.1) := by
  unfold observe
  dsimp only
  rw [Chromosome.addFitness_test]
  generalize h.prepare s sites c.test = p
  obtain ⟨s', l', failed⟩ := p
  simp only [Chromosome.findFitness?_bindLoader, hg]

theorem observe_of_findFitness?_some {goal : Goal}
    (hg : (c.addFitness (h.fitness.branchGoal f branch)).findFitness? branch.id = some goal) :
    let prep := h.prepare s sites c.test
    let ready := (c.addFitness (h.fitness.branchGoal f branch)).bindLoader prep.2.1
    let buf := ObservationBuffer.forSites sites
    let run := h.fitness.evaluate f goal ready.clearCachedResults buf
    h.observe s f branch sites c =
      (((sites.filter (prep.2.2.contains ·.className)).foldl (fun b s => b.clearSite s.id)
          (buf.recordAll run.2.1)).sites,
        prep.1, run.2.2, ready.clearCachedResults.setFitnessValue branch.id run.1) := by
  unfold observe
  dsimp only
  rw [Chromosome.addFitness_test]
  generalize h.prepare s sites c.test = p
  obtain ⟨s', l', failed⟩ := p
  simp only [Chromosome.findFitness?_bindLoader, hg]

/-- An observed execution captures values under the identities of the sites and no others. -/
theorem keys_observe :
    (h.observe s f branch sites c).1.map (·.1) =
      (ObservationBuffer.forSites sites).sites.map (·.1) := by
  cases hg : (c.addFitness (h.fitness.branchGoal f branch)).findFitness? branch.id with
  | none => rw [observe_of_findFitness?_none h s f branch sites c hg]
  | some goal =>
    rw [observe_of_findFitness?_some h s f branch sites c hg]
    simp

/-- With a goal for the branch, an identity of the sites holds nothing when one of its sites has
a class noted as failed, and otherwise what the evaluation probed there, in order. -/
theorem mem_observe_of_findFitness?_some {goal : Goal}
    (hg : (c.addFitness (h.fitness.branchGoal f branch)).findFitness? branch.id = some goal)
    {k : String} {vs : List Value} :
    let prep := h.prepare s sites c.test
    let ready := (c.addFitness (h.fitness.branchGoal f branch)).bindLoader prep.2.1
    let run := h.fitness.evaluate f goal ready.clearCachedResults (ObservationBuffer.forSites sites)
    (k, vs) ∈ (h.observe s f branch sites c).1 ↔ (∃ site ∈ sites, site.id = k) ∧
      vs = if ∃ site ∈ sites.filter (fun x : Instruction => prep.2.2.contains x.className),
          site.id = k then []
        else (run.2.1.filter (·.1 == k)).map (·.2) := by
  dsimp only
  rw [observe_of_findFitness?_some h s f branch sites c hg]
  simp only [ObservationBuffer.mem_clearSites, ObservationBuffer.mem_recordAll,
    ObservationBuffer.mem_forSites]
  constructor
  · rintro ⟨vs₁, ⟨vs₀, ⟨hk, rfl⟩, rfl⟩, rfl⟩
    exact ⟨hk, rfl⟩
  · rintro ⟨hk, rfl⟩
    exact ⟨_, ⟨[], ⟨hk, rfl⟩, rfl⟩, rfl⟩

end Observe

/-- What one observed execution captures, for every behaviour of the sandbox and the framework:
one sequence per site identity, in identity order; nothing under the identity of a site whose
class failed a load attempt during the execution; under an identity none of whose sites failed,
what the evaluation probed there in order, and nothing when the chromosome has no goal for the
branch. Without a goal the chromosome keeps its test, change mark and cached values, and gains at
most the goal and the loading context; with one it caches the fitness the evaluation returned. -/
theorem observe_captures (s : σ) (f : φ) (branch : Branch) (sites : List Instruction)
    (c : Chromosome) :
    let g := h.fitness.branchGoal f branch
    let start := h.openLoader s sites c.test
    let prep := h.prepare s sites c.test
    let ready := (c.addFitness g).bindLoader prep.2.1
    let out := h.observe s f branch sites c
    (out.1.map (·.1)).Pairwise (· < ·) ∧
      (∀ k, k ∈ out.1.map (·.1) ↔ ∃ site ∈ sites, site.id = k) ∧
      (∀ site ∈ sites, h.LoadFails start.1 start.2 sites site.className → (site.id, []) ∈ out.1) ∧
      ((c.addFitness g).findFitness? branch.id = none →
        (∀ site ∈ sites, (site.id, []) ∈ out.1) ∧ out.2.2.2.test = c.test ∧
          out.2.2.2.changed = c.changed ∧
          (out.2.2.2.fitness = c.fitness ∨ out.2.2.2.fitness = c.fitness ++ [{ goal := g }]) ∧
          out.2.2.2.loader = some prep.2.1) ∧
      (∀ goal, (c.addFitness g).findFitness? branch.id = some goal →
        let run := h.fitness.evaluate f goal ready.clearCachedResults
          (ObservationBuffer.forSites sites)
        (∀ site ∈ sites, (∀ other ∈ sites, other.id = site.id →
            ¬ h.LoadFails start.1 start.2 sites other.className) →
          (site.id, (run.2.1.filter (·.1 == site.id)).map (·.2)) ∈ out.1) ∧
        out.2.2.2.test = c.test ∧ out.2.2.2.fitnessValue? branch.id = some run.1) := by
  dsimp only
  obtain ⟨hsorted, hkeys⟩ := ObservationBuffer.forSites_keys sites
  have hout := keys_observe h s f branch sites c
  refine ⟨?sorted, ?keys, ?failed, ?none, ?some⟩
  case sorted =>
    rw [hout]
    exact List.pairwise_map.2 hsorted
  case keys =>
    intro k
    rw [hout]
    exact hkeys k
  case failed =>
    intro site hsite hfail
    cases hg : (c.addFitness (h.fitness.branchGoal f branch)).findFitness? branch.id with
    | none =>
      rw [observe_of_findFitness?_none h s f branch sites c hg]
      exact ObservationBuffer.mem_forSites.2 ⟨⟨site, hsite, rfl⟩, rfl⟩
    | some goal =>
      have hC := (mem_prepare h s sites c.test _).2 hfail
      refine (mem_observe_of_findFitness?_some h s f branch sites c hg).2 ⟨⟨site, hsite, rfl⟩, ?_⟩
      rw [if_pos ⟨site, List.mem_filter.2 ⟨hsite, List.contains_iff_mem.2 hC⟩, rfl⟩]
  case none =>
    intro hg
    rw [observe_of_findFitness?_none h s f branch sites c hg]
    exact ⟨fun site hsite => ObservationBuffer.mem_forSites.2 ⟨⟨site, hsite, rfl⟩, rfl⟩,
      Chromosome.addFitness_test c _, Chromosome.addFitness_changed c _,
      Chromosome.addFitness_fitness c _, rfl⟩
  case some =>
    intro goal hg
    refine ⟨fun site hsite hok => ?_, ?_, ?_⟩
    · refine (mem_observe_of_findFitness?_some h s f branch sites c hg).2 ⟨⟨site, hsite, rfl⟩, ?_⟩
      -- no site with this identity has a class noted as failed
      rw [if_neg]
      rintro ⟨other, hother, hid⟩
      rw [List.mem_filter, List.contains_iff_mem] at hother
      exact hok other hother.1 hid ((mem_prepare h s sites c.test _).1 hother.2)
    · rw [observe_of_findFitness?_some h s f branch sites c hg]
      exact Chromosome.addFitness_test c _
    · rw [observe_of_findFitness?_some h s f branch sites c hg]
      exact Chromosome.fitnessValue?_setFitnessValue (by simpa using hg) _

end Harness

/-- Two sites of different classes share the identity `a.b.c:0 IRETURN`. The class `a` of one
fails to load, the class `a.b` of the other does not, and the program, run on the test of the
chromosome, probes one value at the other; the execution still captures nothing there. -/
theorem observe_empties_shared_identity :
    let A : Instruction := ⟨"a.b", "c", 0, .ireturn, none⟩
    let B : Instruction := ⟨"a", "b.c", 0, .ireturn, none⟩
    let h : Harness Sandbox ProgramFitness := ⟨Sandbox.ops, ProgramFitness.ops⟩
    let sb : Sandbox := { unloadable := ["a"] }
    let fit : ProgramFitness :=
      { targetMethod := Fixture.targetMethod, program := { probes := [(A, .arg 1)] } }
    let c := Chromosome.new (Fixture.intTargetSeed 5)
    let start := h.openLoader sb [A, B] c.test
    A.id = B.id ∧ ¬ h.LoadFails start.1 start.2 [A, B] A.className ∧
      ((fit.execute c).2.1.filter (·.1 == A.id)).length = 1 ∧
      (h.observe sb fit Fixture.targetBranch [A, B] c).1.map (fun e => (e.1, e.2.length)) =
        [(A.id, 0)] := by
  dsimp only
  refine ⟨by decide +kernel, ?_, by decide +kernel, by decide +kernel⟩
  -- the class `a.b` is not among those the loading notes as failed
  exact (Harness.mem_prepare _ _ _ _ _).not.1 (by decide +kernel)

end BranchSensitivity

import BranchSensitivity.Dependency.RootVariable

/-!
# The dependency walk is a pre-order traversal

`allChildren` walks an explicit stack: it pops a node, skips it when its key was emitted, and
otherwise emits it and pushes its children so that the leftmost comes off first. The recursive
traversal `preorder` visits a node, then its children left to right, and skips a node whose key
was emitted before together with its whole subtree. The two agree on every tree:

    r.allChildren = r.preorder

The walk marks a node when it pops it, not when it pushes it, so a key can sit on the stack
several times; what the stack holds above the pending siblings of an open node is exactly the
rest of that node's traversal (`walk_append`: the walk of `r :: rest` traverses `r` as `visit`
does and goes on with `rest`, the fuel, the tree's size, never running out first).

From the traversal: the list starts with `r`, its keys are pairwise distinct, it holds only nodes
of `r`, and every child of a node it holds has its key in it. So when nodes of one key have the
same children, its keys are exactly the keys of the nodes of `r`.
-/

namespace BranchSensitivity.RootVariable

/-- The pre-order traversal of `r` after the nodes `done` were emitted: `r` is skipped with its
whole subtree when a node of its key was emitted, else `r` is emitted and its children are
visited left to right. -/
def visit (done : List RootVariable) : RootVariable → List RootVariable
  | mk k i cs =>
    if (done.map key).contains (mk k i cs).key then done
    else visitAll (done ++ [mk k i cs]) cs
where
  /-- Visit the trees of a forest in turn. -/
  visitAll (done : List RootVariable) : List RootVariable → List RootVariable
    | [] => done
    | c :: cs => visitAll (visit done c) cs

/-- The recursive pre-order traversal: children left to right, each key once. -/
def preorder (r : RootVariable) : List RootVariable := visit [] r

/-- The nodes of a tree in pre-order, a repeated subtree once for each place it occurs. -/
def nodes : RootVariable → List RootVariable
  | mk k i cs => mk k i cs :: nodesList cs
where
  /-- The nodes of a forest. -/
  nodesList : List RootVariable → List RootVariable
    | [] => []
    | c :: cs => nodes c ++ nodesList cs

theorem walk_nil (fuel : Nat) (seen : List String) (out : List RootVariable) :
    walk fuel [] seen out = out.reverse := by
  cases fuel <;> rfl

theorem walk_cons (fuel : Nat) (node : RootVariable) (rest : List RootVariable)
    (seen : List String) (out : List RootVariable) :
    walk (fuel + 1) (node :: rest) seen out =
      if seen.contains node.key then walk fuel rest seen out
      else walk fuel (node.children ++ rest) (node.key :: seen) (node :: out) := rfl

theorem contains_keys_reverse (done : List RootVariable) (k : String) :
    (done.map key).reverse.contains k = (done.map key).contains k := by
  simp

/-- The walk of `r :: rest`, from the state that emitted `done`, traverses `r` as `visit` does and
goes on with `rest`, with at least `n` of its fuel left when it had `r.size + n`. The invariant is
carried by induction along `visit`, a forest `cs` standing for the stack `cs ++ rest`. -/
theorem walk_append (done : List RootVariable) (r : RootVariable) :
    ∀ (rest : List RootVariable) (fuel n : Nat), r.size + n ≤ fuel →
      ∃ m, n ≤ m ∧ walk fuel (r :: rest) (done.map key).reverse done.reverse =
        walk m rest ((visit done r).map key).reverse (visit done r).reverse := by
  refine visit.induct
    (fun done cs => ∀ (rest : List RootVariable) (fuel n : Nat), size.sizeList cs + n ≤ fuel →
      ∃ m, n ≤ m ∧ walk fuel (cs ++ rest) (done.map key).reverse done.reverse =
        walk m rest ((visit.visitAll done cs).map key).reverse (visit.visitAll done cs).reverse)
    (fun done r => ∀ (rest : List RootVariable) (fuel n : Nat), r.size + n ≤ fuel →
      ∃ m, n ≤ m ∧ walk fuel (r :: rest) (done.map key).reverse done.reverse =
        walk m rest ((visit done r).map key).reverse (visit done r).reverse)
    ?skip ?emit ?nil ?cons done r
  case skip =>
    intro done k i cs hseen rest fuel n hfuel
    obtain ⟨f, rfl⟩ : ∃ f, fuel = f + 1 := ⟨fuel - 1, by simp [size] at hfuel; omega⟩
    refine ⟨f, by simp [size] at hfuel; omega, ?_⟩
    rw [walk_cons, contains_keys_reverse, if_pos hseen, visit.eq_1, if_pos hseen]
  case emit =>
    intro done k i cs hseen ih rest fuel n hfuel
    obtain ⟨f, rfl⟩ : ∃ f, fuel = f + 1 := ⟨fuel - 1, by simp [size] at hfuel; omega⟩
    obtain ⟨m, hm, hwalk⟩ := ih rest f n (by simp [size] at hfuel; omega)
    refine ⟨m, hm, ?_⟩
    rw [walk_cons, contains_keys_reverse, if_neg hseen, visit.eq_1, if_neg hseen, ← hwalk]
    simp [children]
  case nil =>
    intro done rest fuel n hfuel
    exact ⟨fuel, by simpa [size.sizeList] using hfuel, by rfl⟩
  case cons =>
    intro done c cs ihc ihcs rest fuel n hfuel
    obtain ⟨m₁, hm₁, hwalk₁⟩ := ihc (cs ++ rest) fuel (size.sizeList cs + n)
      (by simp [size.sizeList] at hfuel; omega)
    obtain ⟨m₂, hm₂, hwalk₂⟩ := ihcs rest m₁ n hm₁
    exact ⟨m₂, hm₂, by rw [List.cons_append, hwalk₁, hwalk₂, visit.visitAll.eq_2]⟩

/-- The explicit-stack walk is the recursive pre-order traversal. -/
theorem allChildren_eq_preorder (r : RootVariable) : r.allChildren = r.preorder := by
  obtain ⟨m, -, hwalk⟩ := walk_append [] r [] r.size 0 (by omega)
  rw [allChildren, preorder]
  simpa [walk_nil] using hwalk

/-! ## What the traversal emits -/

/-- A traversal only adds to what was emitted before it. -/
theorem prefix_visit (done : List RootVariable) (r : RootVariable) : done <+: visit done r := by
  refine visit.induct (fun done cs => done <+: visit.visitAll done cs)
    (fun done r => done <+: visit done r) ?skip ?emit ?nil ?cons done r
  case skip =>
    intro done k i cs hseen
    simp only [visit.eq_1, if_pos hseen, List.prefix_refl]
  case emit =>
    intro done k i cs hseen ih
    rw [visit.eq_1, if_neg hseen]
    exact (List.prefix_append done _).trans ih
  case nil => intro done; exact List.prefix_refl done
  case cons =>
    intro done c cs ihc ihcs
    exact ihc.trans ihcs

theorem prefix_visitAll (done cs : List RootVariable) : done <+: visit.visitAll done cs := by
  induction cs generalizing done with
  | nil => exact List.prefix_refl done
  | cons c cs ih => exact (prefix_visit done c).trans (ih _)

/-- A key emitted before a traversal is still emitted after it. -/
theorem mem_keys_visitAll {done : List RootVariable} (cs : List RootVariable) {k : String}
    (hk : k ∈ done.map key) : k ∈ (visit.visitAll done cs).map key :=
  ((prefix_visitAll done cs).map key).subset hk

/-- After a traversal the key of the node it starts from is emitted: before it, or by it. -/
theorem key_mem_visit (done : List RootVariable) (r : RootVariable) :
    r.key ∈ (visit done r).map key := by
  obtain ⟨k, i, cs⟩ := r
  rw [visit.eq_1]
  split
  · rename_i hseen
    simpa using hseen
  · exact mem_keys_visitAll cs (by simp)

theorem key_mem_visitAll (done cs : List RootVariable) :
    ∀ c ∈ cs, c.key ∈ (visit.visitAll done cs).map key := by
  induction cs generalizing done with
  | nil => simp
  | cons c cs ih =>
    intro c' hc'
    rcases List.mem_cons.1 hc' with rfl | hc'
    · exact mem_keys_visitAll cs (key_mem_visit done c')
    · exact ih _ c' hc'

/-- Every node the traversal emits is a node of the tree it starts from. -/
theorem mem_visit (done : List RootVariable) (r : RootVariable) :
    ∀ E ∈ visit done r, E ∈ done ∨ E ∈ r.nodes := by
  refine visit.induct (fun done cs => ∀ E ∈ visit.visitAll done cs, E ∈ done ∨ E ∈ nodes.nodesList cs)
    (fun done r => ∀ E ∈ visit done r, E ∈ done ∨ E ∈ r.nodes) ?skip ?emit ?nil ?cons done r
  case skip =>
    intro done k i cs hseen E hE
    rw [visit.eq_1, if_pos hseen] at hE
    exact .inl hE
  case emit =>
    intro done k i cs hseen ih E hE
    rw [visit.eq_1, if_neg hseen] at hE
    rcases ih E hE with hE | hE
    · rcases List.mem_append.1 hE with hE | hE
      · exact .inl hE
      · exact .inr (by simp_all [nodes])
    · exact .inr (by simp [nodes, hE])
  case nil => intro done E hE; exact .inl hE
  case cons =>
    intro done c cs ihc ihcs E hE
    rcases ihcs E hE with hE | hE
    · rcases ihc E hE with hE | hE
      · exact .inl hE
      · exact .inr (by simp [nodes.nodesList, hE])
    · exact .inr (by simp [nodes.nodesList, hE])

/-- The traversal emits no key twice. -/
theorem keys_nodup_visit (done : List RootVariable) (r : RootVariable)
    (hdone : (done.map key).Nodup) : ((visit done r).map key).Nodup := by
  revert hdone
  refine visit.induct (fun done cs => (done.map key).Nodup → ((visit.visitAll done cs).map key).Nodup)
    (fun done r => (done.map key).Nodup → ((visit done r).map key).Nodup) ?skip ?emit ?nil ?cons done r
  case skip =>
    intro done k i cs hseen hdone
    rw [visit.eq_1, if_pos hseen]
    exact hdone
  case emit =>
    intro done k i cs hseen ih hdone
    rw [visit.eq_1, if_neg hseen]
    apply ih
    rw [List.map_append, List.nodup_append]
    refine ⟨hdone, by simp, ?_⟩
    intro a ha b hb hab
    simp only [List.map_cons, List.map_nil, List.mem_singleton] at hb
    subst hb hab
    exact hseen (by simpa using ha)
  case nil => intro done hdone; exact hdone
  case cons =>
    intro done c cs ihc ihcs hdone
    exact ihcs (ihc hdone)

/-- Every child of a node the traversal emits has its key emitted too: emitting a node is
followed by the traversal of its children, and a child is skipped only for an emitted key. -/
theorem children_emitted_visit (done : List RootVariable) (r : RootVariable) :
    ∀ E ∈ visit done r, E ∈ done ∨ ∀ c ∈ E.children, c.key ∈ (visit done r).map key := by
  refine visit.induct
    (fun done cs => ∀ E ∈ visit.visitAll done cs,
      E ∈ done ∨ ∀ c ∈ E.children, c.key ∈ (visit.visitAll done cs).map key)
    (fun done r => ∀ E ∈ visit done r,
      E ∈ done ∨ ∀ c ∈ E.children, c.key ∈ (visit done r).map key) ?skip ?emit ?nil ?cons done r
  case skip =>
    intro done k i cs hseen E hE
    rw [visit.eq_1, if_pos hseen] at hE
    exact .inl hE
  case emit =>
    intro done k i cs hseen ih E hE
    rw [visit.eq_1, if_neg hseen] at hE ⊢
    rcases ih E hE with hE | hE
    · rcases List.mem_append.1 hE with hE | hE
      · exact .inl hE
      · -- the node emitted here: its children are exactly the forest visited next
        right
        rw [List.mem_singleton.1 hE]
        exact key_mem_visitAll _ cs
    · exact .inr hE
  case nil => intro done E hE; exact .inl hE
  case cons =>
    intro done c cs ihc ihcs E hE
    rcases ihcs E hE with hE | hE
    · rcases ihc E hE with hE | hE
      · exact .inl hE
      · exact .inr fun c' hc' => mem_keys_visitAll cs (hE c' hc')
    · exact .inr hE

/-! ## The emitted keys -/

/-- A property of keys that holds at the root and passes from every node of the tree to its
children holds at every node. -/
theorem key_of_closed {S : String → Prop} (r : RootVariable) (hroot : S r.key)
    (hstep : ∀ N ∈ r.nodes, S N.key → ∀ c ∈ N.children, S c.key) : ∀ N ∈ r.nodes, S N.key := by
  revert hroot hstep
  refine nodes.induct
    (fun cs => (∀ c ∈ cs, S c.key) →
      (∀ N ∈ nodes.nodesList cs, S N.key → ∀ c ∈ N.children, S c.key) →
        ∀ N ∈ nodes.nodesList cs, S N.key)
    (fun r => S r.key → (∀ N ∈ r.nodes, S N.key → ∀ c ∈ N.children, S c.key) →
      ∀ N ∈ r.nodes, S N.key) ?node ?nil ?cons r
  case node =>
    intro k i cs ih hroot hstep N hN
    rw [nodes, List.mem_cons] at hN
    rcases hN with rfl | hN
    · exact hroot
    · -- the children hold by the step at the root, and the step holds below it
      have hcs : ∀ c ∈ cs, S c.key := hstep _ (by simp [nodes]) hroot
      exact ih hcs (fun N' hN' => hstep N' (by simp [nodes, hN'])) N hN
  case nil => intro _ _ N hN; simp [nodes.nodesList] at hN
  case cons =>
    intro c cs ihc ihcs hroots hstep N hN
    rw [nodes.nodesList, List.mem_append] at hN
    rcases hN with hN | hN
    · exact ihc (hroots c (by simp)) (fun N' hN' => hstep N' (by simp [nodes.nodesList, hN'])) N hN
    · exact ihcs (fun c' hc' => hroots c' (by simp [hc']))
        (fun N' hN' => hstep N' (by simp [nodes.nodesList, hN'])) N hN

theorem head?_preorder (r : RootVariable) : r.preorder.head? = some r := by
  obtain ⟨k, i, cs⟩ := r
  obtain ⟨rest, hrest⟩ := prefix_visitAll [mk k i cs] cs
  rw [preorder, visit.eq_1, if_neg (by simp), List.nil_append, ← hrest]
  rfl

/-- When nodes of one key have the same children, the traversal emits the key of every node:
it starts with the root's, and an emitted key stands for a node whose children, those of every
node of that key, are emitted in turn. -/
theorem mem_keys_preorder (r : RootVariable)
    (H : ∀ a ∈ r.nodes, ∀ b ∈ r.nodes, a.key = b.key → a.children = b.children) (k : String) :
    k ∈ r.preorder.map key ↔ ∃ N ∈ r.nodes, N.key = k := by
  constructor
  · intro hk
    obtain ⟨E, hE, rfl⟩ := List.mem_map.1 hk
    rcases mem_visit [] r E hE with hE' | hE'
    · simp at hE'
    · exact ⟨E, hE', rfl⟩
  · rintro ⟨N, hN, rfl⟩
    refine key_of_closed (S := (· ∈ r.preorder.map key)) r (key_mem_visit [] r) ?_ N hN
    intro N hN hkey c hc
    obtain ⟨E, hE, hEN⟩ := List.mem_map.1 hkey
    have hEnode : E ∈ r.nodes := (mem_visit [] r E hE).resolve_left (by simp)
    rcases children_emitted_visit [] r E hE with hE' | hchildren
    · simp at hE'
    · exact hchildren c (H E hEnode N hN hEN ▸ hc)

/-- **The walk is the pre-order traversal.** `allChildren` lists `r` first, then its nodes in
pre-order, skipping a node whose key was emitted together with its subtree; no key comes twice,
and when nodes of one key have the same children every key of the tree comes. -/
theorem allChildren_preorder_keys (r : RootVariable) :
    r.allChildren = r.preorder ∧ r.allChildren.head? = some r ∧ (r.allChildren.map key).Nodup ∧
      ((∀ a ∈ r.nodes, ∀ b ∈ r.nodes, a.key = b.key → a.children = b.children) →
        ∀ k, k ∈ r.allChildren.map key ↔ ∃ N ∈ r.nodes, N.key = k) := by
  rw [allChildren_eq_preorder]
  exact ⟨rfl, head?_preorder r, keys_nodup_visit [] r (by simp), mem_keys_preorder r⟩

/-- A leaf shared by the root and its first child is listed once. -/
example :
    let ins (o : Nat) : Instruction := ⟨"com.example.Foo", "targetM(I)V", o, .iload, none⟩
    let leaf := mk (.parameter 1) (ins 1) []
    let mid := mk (.local "a") (ins 2) [leaf]
    (mk (.local "b") (ins 3) [mid, leaf]).allChildren.length = 3 := by decide +kernel

end BranchSensitivity.RootVariable

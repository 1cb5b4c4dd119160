import Mathlib.Data.List.Infix
import Mathlib.Data.List.Nodup
import ModuleBundler.Proofs.Bundle.Construction

/-!
# Walking a bundle tree

The walk of a tree goes from the root downwards, and through the children of a
bundle in the order in which they were made.  It is the order of a loop with a
stack: the first bundle on the stack is visited, and its children take its place.

Main results:

- Theorem {lit}`BundleTree.Coherent.mem_subtree_iff`: below a bundle lie the bundles that it is an
  ancestor of.
- Theorem {lit}`BundleTree.Coherent.nodup_subtree`: the walk below a bundle repeats nothing.
- Theorem {lit}`BundleTree.Coherent.visits_walk_iff`: the loop ends, in the order of the walk.
- Theorem {lit}`BundleTree.Constructed.charted`: what the accounts of the shape of a tree and its walk say.
-/

namespace ModuleBundler
namespace BundleTree

/-- Whether visiting the bundles on a stack, and then their children, ends with an order of visits. -/
inductive Visits (tree : BundleTree) : List BundleId → List BundleId → Prop
  | done : tree.Visits [] []
  | visit {id : BundleId} {stack order : List BundleId} (h : tree.Visits (tree.childrenOf id ++ stack) order) :
      tree.Visits (id :: stack) (id :: order)

/-- A stack leads to one order at most. -/
theorem Visits.unique {tree : BundleTree} {stack order other : List BundleId} (h : tree.Visits stack order)
    (hother : tree.Visits stack other) : order = other := by
  induction h generalizing other with
  | done => cases hother; rfl
  | visit _ ih =>
    cases hother with
    | visit hrest => rw [ih hrest]

/-- An ancestor of a bundle is the bundle, or the parent of an ancestor. -/
theorem Rooted.mem_chain_iff {tree : BundleTree} (hrooted : tree.Rooted) {top id : BundleId} :
    top ∈ tree.chain id ↔ id = top ∨ ∃ child ∈ tree.chain id, tree.parentOf child = some top := by
  constructor
  · intro h
    induction hn : id.index using Nat.strongRecOn generalizing id with
    | ind n ih =>
      subst hn
      rw [hrooted.chain_eq]
      rw [hrooted.chain_eq] at h
      rcases List.mem_cons.1 h with rfl | hmem
      · exact .inl rfl
      · right
        cases hparent : tree.parentOf id with
        | none =>
          rw [hparent] at hmem
          cases hmem
        | some parent =>
          rw [hparent, Option.map_some, Option.getD_some] at hmem
          rcases ih _ (hrooted.parent_lt hparent) hmem rfl with rfl | ⟨child, hchild, hup⟩
          · exact ⟨id, List.mem_cons_self, hparent⟩
          · exact ⟨child, List.mem_cons_of_mem _ hchild, hup⟩
  · rintro (rfl | ⟨child, hchild, hup⟩)
    · exact mem_chain_self tree id
    · exact mem_chain_trans hchild (mem_chain_of_parent hup (hrooted.parent_lt hup))

namespace Coherent

variable {tree : BundleTree} (h : tree.Coherent)
include h

/-! ## Subtrees -/

/-- A subtree consists of its top and the subtrees of the children. -/
theorem subtree_eq (id : BundleId) :
    tree.subtree id = id :: (tree.childrenOf id).flatMap tree.subtree := by
  rw [subtree, List.cons.injEq]
  refine ⟨rfl, List.flatMap_congr fun child hmem => ?_⟩
  exact dif_pos (h.lt_of_mem_children hmem)

/-- Induction from the bundles without children upwards. -/
theorem upward {motive : BundleId → Prop}
    (step : ∀ id, (∀ child ∈ tree.childrenOf id, motive child) → motive id) (id : BundleId) :
    motive id := by
  induction hn : tree.size - id.index using Nat.strongRecOn generalizing id with
  | ind n ih =>
    subst hn
    refine step id fun child hmem => ih _ ?_ child rfl
    have hlt := h.lt_of_mem_children hmem
    omega

/-- Below a bundle lie the bundles that it is an ancestor of. -/
theorem mem_subtree_iff {top id : BundleId} : id ∈ tree.subtree top ↔ top ∈ tree.chain id := by
  induction top using h.upward with
  | step top ih =>
    rw [h.subtree_eq, List.mem_cons, List.mem_flatMap, h.mem_chain_iff]
    apply or_congr Iff.rfl
    apply exists_congr
    intro child
    rw [h.mem_children, and_comm]
    exact and_congr_left fun hup => ih child (h.mem_children.2 hup)

/-- What lies below two children of one bundle lies below the same child. -/
theorem eq_of_mem_subtree {parent a b id : BundleId} (ha : tree.parentOf a = some parent)
    (hb : tree.parentOf b = some parent) (hbelowA : id ∈ tree.subtree a) (hbelowB : id ∈ tree.subtree b) :
    a = b := by
  have hapart : ∀ {x y : BundleId}, tree.parentOf x = some parent → tree.parentOf y = some parent →
      x ∈ tree.chain y → x = y := by
    intro x y hx hy hmem
    rw [h.chain_eq, hy] at hmem
    rcases List.mem_cons.1 hmem with heq | habove
    · exact heq
    · have hle := index_le_of_mem_chain habove
      have hlt := h.parent_lt hx
      omega
  rcases mem_chain_total (h.mem_subtree_iff.1 hbelowA) (h.mem_subtree_iff.1 hbelowB) with hmem | hmem
  · exact hapart ha hb hmem
  · exact (hapart hb ha hmem).symm

/-- The walk below a bundle repeats nothing. -/
theorem nodup_subtree (top : BundleId) : (tree.subtree top).Nodup := by
  induction top using h.upward with
  | step top ih =>
    rw [h.subtree_eq, List.nodup_cons, List.nodup_flatMap]
    refine ⟨?_, ih, ?_⟩
    · rw [List.mem_flatMap]
      rintro ⟨child, hchild, hmem⟩
      have hle := index_le_of_mem_chain (h.mem_subtree_iff.1 hmem)
      have hlt := (h.lt_of_mem_children hchild).1
      omega
    · have hchildren : (tree.childrenOf top).Pairwise fun a b =>
          a ∈ tree.childrenOf top ∧ b ∈ tree.childrenOf top ∧ a.index < b.index :=
        List.Pairwise.and_mem.1 (h.ascending top)
      refine hchildren.imp fun {a b} ⟨ha, hb, hlt⟩ => ?_
      intro id hbelowA hbelowB
      have heq := h.eq_of_mem_subtree (h.mem_children.1 ha) (h.mem_children.1 hb) hbelowA hbelowB
      rw [heq] at hlt
      exact Nat.lt_irrefl _ hlt

/-- The subtree of a bundle is a stretch of the subtree of any of its ancestors. -/
theorem subtree_infix {top id : BundleId} (hmem : top ∈ tree.chain id) :
    tree.subtree id <:+: tree.subtree top := by
  rw [← h.mem_subtree_iff] at hmem
  induction top using h.upward with
  | step top ih =>
    rw [h.subtree_eq top] at hmem
    rcases List.mem_cons.1 hmem with rfl | hbelow
    · exact List.infix_rfl
    · obtain ⟨child, hchild, hid⟩ := List.mem_flatMap.1 hbelow
      refine (ih child hchild hid).trans ?_
      obtain ⟨before, after, hsplit⟩ := List.append_of_mem hchild
      rw [h.subtree_eq top, hsplit]
      exact ⟨top :: before.flatMap tree.subtree, after.flatMap tree.subtree, by simp⟩

/-! ## The walk -/

theorem walk_eq : tree.walk = tree.subtree ⟨0⟩ := by
  rw [walk, h.root]

/-- Every bundle lies below the root. -/
theorem root_mem_chain_iff {id : BundleId} : ⟨0⟩ ∈ tree.chain id ↔ id.index < tree.size := by
  constructor
  · intro hmem
    rcases h.mem_chain_iff.1 hmem with rfl | ⟨child, hchild, hup⟩
    · exact h.size_pos
    · rw [h.chain_eq] at hchild
      cases hparent : tree.parentOf id with
      | none =>
        rw [hparent, Option.map_none, Option.getD_none, List.mem_singleton] at hchild
        rw [hchild, hparent] at hup
        cases hup
      | some parent => exact lt_size_of_parentOf hparent
  · intro hlt
    obtain ⟨below, hbelow⟩ := h.exists_reverse_chain hlt
    rw [← List.mem_reverse, hbelow]
    exact List.mem_cons_self

theorem mem_walk_iff {id : BundleId} : id ∈ tree.walk ↔ id.index < tree.size := by
  rw [h.walk_eq, h.mem_subtree_iff, h.root_mem_chain_iff]

/-- A loop with the children of a bundle on its stack walks through their subtrees. -/
theorem visits_subtree (top : BundleId) {stack order : List BundleId} (hrest : tree.Visits stack order) :
    tree.Visits (top :: stack) (tree.subtree top ++ order) := by
  induction top using h.upward generalizing stack order with
  | step top ih =>
    have hchildren : ∀ children : List BundleId, (∀ child ∈ children, child ∈ tree.childrenOf top) →
        tree.Visits (children ++ stack) (children.flatMap tree.subtree ++ order) := by
      intro children hsome
      induction children with
      | nil => exact hrest
      | cons child rest hvisits =>
        rw [List.flatMap_cons, List.append_assoc]
        exact ih child (hsome child List.mem_cons_self)
          (hvisits fun other hmem => hsome other (List.mem_cons_of_mem _ hmem))
    rw [h.subtree_eq]
    exact .visit (hchildren _ fun _ => id)

/-- The loop that starts with the root ends, in the order of the walk. -/
theorem visits_walk_iff {order : List BundleId} : tree.Visits tree.root.toList order ↔ order = tree.walk := by
  have hwalk : tree.Visits tree.root.toList tree.walk := by
    rw [h.root, h.walk_eq]
    simpa using h.visits_subtree ⟨0⟩ .done
  constructor
  · exact fun hvisits => hvisits.unique hwalk
  · rintro rfl
    exact hwalk

end Coherent

/-! ## Charts -/

/-- What a tree says about its shape: children and parents, siblings, and the walk. -/
structure Charted (tree : BundleTree) : Prop where
  /-- A bundle is noted once as a child of its parent, and never as a child of another bundle. -/
  children : ∀ parent child,
    (tree.childrenOf parent).count child = if tree.parentOf child = some parent then 1 else 0
  /-- For another kind there is one bundle next to a bundle: a child of that kind, which is given again
  whatever is built in between. -/
  sibling : ∀ id kind later, id.index < tree.size → kind ≠ tree.kindOf id →
    (tree.sibling id kind).2.Becomes later →
      later.sibling id kind = ((tree.sibling id kind).1, later) ∧
        (tree.sibling id kind).1 ∈ later.childrenOf id ∧
        later.kindOf (tree.sibling id kind).1 = kind
  /-- The loop of the walk ends, in the order of the walk and in no other. -/
  visits : ∀ order, tree.Visits tree.root.toList order ↔ order = tree.walk
  /-- The walk lists every bundle once, and nothing else. -/
  once : ∀ id, tree.walk.count id = if id.index < tree.size then 1 else 0
  /-- Parents come before their children. -/
  downward : ∀ parent child, tree.parentOf child = some parent → [parent, child].Sublist tree.walk
  /-- Every bundle is followed at once by the subtrees of its children, one after another. -/
  blocks : ∀ id, id.index < tree.size →
    (id :: (tree.childrenOf id).flatMap tree.subtree) <:+: tree.walk
  /-- The children stand in the order in which they were made. -/
  ascending : ∀ parent, (tree.childrenOf parent).Pairwise fun a b => a.index < b.index
  /-- A subtree holds the bundles that its top is an ancestor of. -/
  below : ∀ top id, id ∈ tree.subtree top ↔ top ∈ tree.chain id

/-- Every tree that is built call by call is charted. -/
theorem Constructed.charted {tree : BundleTree} (h : tree.Constructed) : tree.Charted := by
  have hcoherent := h.coherent
  constructor
  case children =>
    intro parent child
    split
    · rename_i hup
      have hnodup : (tree.childrenOf parent).Nodup :=
        (hcoherent.ascending parent).imp fun {a b} hlt (heq : a = b) => Nat.lt_irrefl _ (heq ▸ hlt)
      exact List.count_eq_one_of_mem hnodup (hcoherent.mem_children.2 hup)
    · rename_i hnot
      exact List.count_eq_zero.2 fun hmem => hnot (hcoherent.mem_children.1 hmem)
  case sibling =>
    intro id kind later hlt hne hlater
    obtain ⟨hsame, hup, hkind⟩ := hlater.sibling hcoherent hlt hne.symm
    have hchild := (hlater.coherent (hcoherent.makes (.sibling hlt kind))).mem_children.2 hup
    exact ⟨hsame, hchild, hkind⟩
  case visits => exact fun order => hcoherent.visits_walk_iff
  case once =>
    intro id
    split
    · rename_i hlt
      have hnodup : tree.walk.Nodup := by
        rw [hcoherent.walk_eq]
        exact hcoherent.nodup_subtree ⟨0⟩
      exact List.count_eq_one_of_mem hnodup (hcoherent.mem_walk_iff.2 hlt)
    · rename_i hnot
      exact List.count_eq_zero.2 fun hmem => hnot (hcoherent.mem_walk_iff.1 hmem)
  case downward =>
    intro parent child hup
    have hchild := hcoherent.mem_children.2 hup
    have hlt := hcoherent.lt_of_mem_children hchild
    have hinfix := hcoherent.subtree_infix (hcoherent.root_mem_chain_iff.2 (Nat.lt_trans hlt.1 hlt.2))
    rw [← hcoherent.walk_eq, hcoherent.subtree_eq] at hinfix
    refine List.Sublist.trans (List.Sublist.cons_cons _ ?_) hinfix.sublist
    rw [List.singleton_sublist]
    exact List.mem_flatMap.2 ⟨child, hchild, hcoherent.mem_subtree_iff.2 (mem_chain_self tree child)⟩
  case blocks =>
    intro id hlt
    rw [hcoherent.walk_eq, ← hcoherent.subtree_eq]
    exact hcoherent.subtree_infix (hcoherent.root_mem_chain_iff.2 hlt)
  case ascending => exact hcoherent.ascending
  case below => exact fun top id => hcoherent.mem_subtree_iff

theorem charted_branching : branching.Constructed ∧ branching.Charted :=
  ⟨constructed_branching, constructed_branching.charted⟩

end BundleTree
end ModuleBundler

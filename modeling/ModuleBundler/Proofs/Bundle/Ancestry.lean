import ModuleBundler.Proofs.Bundle.Growth

/-!
# Ancestors of bundles

The chain of a bundle lists the bundles that are loaded whenever it is: the
bundle itself, its parent, and so on up to the main bundle.

Main results:

- Theorem {lit}`BundleTree.mem_chain_trans`: an ancestor of an ancestor is an ancestor.
- Theorem {lit}`BundleTree.mem_chain_total`: of two ancestors one is an ancestor of the other.
- Theorem {lit}`BundleTree.commonAncestor_mem_chain`: the common ancestor of two bundles is an ancestor of
  both.
- Theorem {lit}`BundleTree.mem_chain_commonAncestor`: it is below all others that are.
- Theorem {lit}`BundleTree.commonAncestor_of_mem_chain`: of a bundle and its ancestor it is the ancestor.
- Theorem {lit}`BundleTree.Extends.chain`: growth does not change the ancestors of a bundle.
-/

namespace ModuleBundler
namespace BundleTree

/-! ## Chains -/

/-- A chain ends at a bundle or goes on with the chain of its parent. -/
theorem chain_cases (tree : BundleTree) (id : BundleId) :
    tree.chain id = [id] ∨ ∃ parent, tree.parentOf id = some parent ∧ parent.index < id.index ∧
      tree.chain id = id :: tree.chain parent := by
  rw [chain]
  cases hparent : tree.parentOf id with
  | none => exact .inl rfl
  | some parent =>
    by_cases hlt : parent.index < id.index
    · exact .inr ⟨parent, rfl, hlt, by simp [hlt]⟩
    · exact .inl (by simp [hlt])

/-- Ancestors were made before. -/
theorem index_le_of_mem_chain {tree : BundleTree} {id other : BundleId} (h : other ∈ tree.chain id) :
    other.index ≤ id.index := by
  induction hn : id.index using Nat.strongRecOn generalizing id with
  | ind n ih =>
    subst hn
    rcases tree.chain_cases id with heq | ⟨parent, -, hlt, heq⟩
    · rw [heq, List.mem_singleton] at h
      exact Nat.le_of_eq (congrArg _ h)
    · rw [heq] at h
      rcases List.mem_cons.1 h with rfl | hmem
      · exact Nat.le_refl _
      · exact Nat.le_trans (ih _ hlt hmem rfl) (Nat.le_of_lt hlt)

/-- A chain runs from later to earlier bundles. -/
theorem pairwise_chain (tree : BundleTree) (id : BundleId) :
    (tree.chain id).Pairwise fun a b => b.index < a.index := by
  induction hn : id.index using Nat.strongRecOn generalizing id with
  | ind n ih =>
    subst hn
    rcases tree.chain_cases id with heq | ⟨parent, -, hlt, heq⟩
    · rw [heq]
      exact List.pairwise_singleton _ _
    · rw [heq]
      exact List.pairwise_cons.2
        ⟨fun other hmem => Nat.lt_of_le_of_lt (index_le_of_mem_chain hmem) hlt, ih _ hlt parent rfl⟩

/-- An ancestor of an ancestor is an ancestor. -/
theorem mem_chain_trans {tree : BundleTree} {a b c : BundleId} (hab : b ∈ tree.chain a)
    (hbc : c ∈ tree.chain b) : c ∈ tree.chain a := by
  induction hn : a.index using Nat.strongRecOn generalizing a with
  | ind n ih =>
    subst hn
    rcases tree.chain_cases a with heq | ⟨parent, -, hlt, heq⟩
    · rw [heq, List.mem_singleton] at hab
      rwa [hab] at hbc
    · rw [heq] at hab
      rcases List.mem_cons.1 hab with rfl | hmem
      · exact hbc
      · rw [heq]
        exact List.mem_cons_of_mem _ (ih _ hlt hmem rfl)

/-- Of two ancestors of a bundle one is an ancestor of the other. -/
theorem mem_chain_total {tree : BundleTree} {a b c : BundleId} (hb : b ∈ tree.chain a)
    (hc : c ∈ tree.chain a) : b ∈ tree.chain c ∨ c ∈ tree.chain b := by
  induction hn : a.index using Nat.strongRecOn generalizing a with
  | ind n ih =>
    subst hn
    rcases tree.chain_cases a with heq | ⟨parent, -, hlt, heq⟩
    · rw [heq, List.mem_singleton] at hb hc
      rw [hb, hc]
      exact .inl (mem_chain_self tree a)
    · rw [heq] at hb hc
      rcases List.mem_cons.1 hb with rfl | hbmem
      · exact .inr (by rw [heq]; exact hc)
      · rcases List.mem_cons.1 hc with rfl | hcmem
        · exact .inl (by rw [heq]; exact List.mem_cons_of_mem _ hbmem)
        · exact ih _ hlt hbmem hcmem rfl

/-- Two bundles that are ancestors of each other are the same. -/
theorem mem_chain_antisymm {tree : BundleTree} {a b : BundleId} (hab : b ∈ tree.chain a)
    (hba : a ∈ tree.chain b) : a = b := by
  have hle := index_le_of_mem_chain hab
  have hge := index_le_of_mem_chain hba
  cases a
  cases b
  exact congrArg BundleId.mk (Nat.le_antisymm hge hle)

/-- The ancestors of a primary bundle are primary. -/
theorem isPrimary_of_mem_chain {tree : BundleTree} (hwf : tree.WellFormed) {id other : BundleId}
    (hprimary : tree.IsPrimary id) (h : other ∈ tree.chain id) : tree.IsPrimary other := by
  induction hn : id.index using Nat.strongRecOn generalizing id with
  | ind n ih =>
    subst hn
    rcases tree.chain_cases id with heq | ⟨parent, hparent, hlt, heq⟩
    · rw [heq, List.mem_singleton] at h
      rwa [h]
    · rw [heq] at h
      rcases List.mem_cons.1 h with rfl | hmem
      · exact hprimary
      · obtain ⟨bundle, hget, -⟩ := hprimary
        rw [parentOf_of_get? hget] at hparent
        exact ih _ hlt (hwf.parent_primary hget hparent) hmem rfl

/-- Whether every bundle has a parent that was made before it, the first one apart. -/
structure Rooted (tree : BundleTree) : Prop where
  parent_lt : ∀ {id parent : BundleId}, tree.parentOf id = some parent → parent.index < id.index
  root_zero : ∀ {id : BundleId}, id.index < tree.size → tree.parentOf id = none → id.index = 0

/-- Only bundles of the tree have parents. -/
theorem lt_size_of_parentOf {tree : BundleTree} {id parent : BundleId}
    (h : tree.parentOf id = some parent) : id.index < tree.size := by
  obtain ⟨bundle, hget, -⟩ := Option.bind_eq_some_iff.1 h
  exact lt_size_of_get? hget

theorem exists_get?_of_lt_size {tree : BundleTree} {id : BundleId} (h : id.index < tree.size) :
    ∃ bundle, tree.get? id = some bundle :=
  ⟨tree.bundles[id.index], List.getElem?_eq_getElem h⟩

theorem WellFormed.rooted {tree : BundleTree} (hwf : tree.WellFormed) : tree.Rooted where
  parent_lt h := by
    obtain ⟨bundle, hget, hparent⟩ := Option.bind_eq_some_iff.1 h
    exact hwf.parent_lt hget hparent
  root_zero hlt h := by
    obtain ⟨bundle, hget⟩ := exists_get?_of_lt_size hlt
    rw [parentOf_of_get? hget] at h
    exact hwf.root_zero hget h

namespace Rooted

variable {tree : BundleTree} (hrooted : tree.Rooted)
include hrooted

/-- A chain goes on with the chain of the parent, for as long as there is one. -/
theorem chain_eq (id : BundleId) : tree.chain id = id :: ((tree.parentOf id).map tree.chain).getD [] := by
  rw [chain]
  cases hparent : tree.parentOf id with
  | none => rfl
  | some parent => simp [hrooted.parent_lt hparent]

/-- Every chain ends at the root. -/
theorem exists_reverse_chain {id : BundleId} (h : id.index < tree.size) :
    ∃ below, (tree.chain id).reverse = ⟨0⟩ :: below := by
  induction hn : id.index using Nat.strongRecOn generalizing id with
  | ind n ih =>
    subst hn
    rw [hrooted.chain_eq]
    cases hparent : tree.parentOf id with
    | none =>
      have hzero : id = ⟨0⟩ := congrArg BundleId.mk (hrooted.root_zero h hparent)
      exact ⟨[], by rw [hzero]; rfl⟩
    | some parent =>
      have hlt := hrooted.parent_lt hparent
      obtain ⟨below, hbelow⟩ := ih _ hlt (Nat.lt_trans hlt h) rfl
      exact ⟨below ++ [id], by simp [hbelow]⟩

end Rooted

/-- Growth does not change the ancestors of a bundle. -/
theorem Extends.chain {old new : BundleTree} (hext : old.Extends new) (hwf : old.WellFormed)
    {id : BundleId} {bundle : Bundle} (h : old.get? id = some bundle) :
    new.chain id = old.chain id := by
  induction hn : id.index using Nat.strongRecOn generalizing id bundle with
  | ind n ih =>
    subst hn
    rw [BundleTree.chain, BundleTree.chain, hext.parentOf h, parentOf_of_get? h]
    cases hparent : bundle.parent with
    | none => rfl
    | some parent =>
      have hlt := hwf.parent_lt h hparent
      obtain ⟨above, habove, -⟩ := hwf.parent_primary h hparent
      simp [hlt, ih _ hlt habove rfl]

/-- Growth does not change the ancestors of a primary bundle. -/
theorem Extends.chain_of_isPrimary {old new : BundleTree} (hext : old.Extends new)
    (hwf : old.WellFormed) {id : BundleId} (h : old.IsPrimary id) : new.chain id = old.chain id := by
  obtain ⟨bundle, hget⟩ := h.exists_get?
  exact hext.chain hwf hget

/-! ## Common ancestors -/

/-- The last agreed entry of two lists is the default or an entry of both. -/
theorem lastAgreed_mem (common : BundleId) (as bs : List BundleId) :
    lastAgreed common as bs = common ∨
      lastAgreed common as bs ∈ as ∧ lastAgreed common as bs ∈ bs := by
  induction as generalizing common bs with
  | nil => exact .inl rfl
  | cons a as ih =>
    cases bs with
    | nil => exact .inl rfl
    | cons b bs =>
      unfold lastAgreed
      split
      · rename_i hab
        subst hab
        rcases ih a bs with heq | ⟨has, hbs⟩
        · rw [heq]
          exact .inr ⟨List.mem_cons_self, List.mem_cons_self⟩
        · exact .inr ⟨List.mem_cons_of_mem _ has, List.mem_cons_of_mem _ hbs⟩
      · exact .inl rfl

/-- The common ancestor of two bundles is an ancestor of both. -/
theorem commonAncestor_mem_chain {tree : BundleTree} (hrooted : tree.Rooted) {a b : BundleId}
    (ha : a.index < tree.size) (hb : b.index < tree.size) :
    tree.commonAncestor a b ∈ tree.chain a ∧ tree.commonAncestor a b ∈ tree.chain b := by
  obtain ⟨belowA, hbelowA⟩ := hrooted.exists_reverse_chain ha
  obtain ⟨belowB, hbelowB⟩ := hrooted.exists_reverse_chain hb
  have hmemA : ∀ c, c ∈ (⟨0⟩ : BundleId) :: belowA → c ∈ tree.chain a := by
    intro c hc
    rwa [← hbelowA, List.mem_reverse] at hc
  have hmemB : ∀ c, c ∈ (⟨0⟩ : BundleId) :: belowB → c ∈ tree.chain b := by
    intro c hc
    rwa [← hbelowB, List.mem_reverse] at hc
  have hcommon : tree.commonAncestor a b = lastAgreed ⟨0⟩ belowA belowB := by
    simp [commonAncestor, hbelowA, hbelowB, lastAgreed]
  rw [hcommon]
  rcases lastAgreed_mem ⟨0⟩ belowA belowB with heq | ⟨hA, hB⟩
  · rw [heq]
    exact ⟨hmemA _ List.mem_cons_self, hmemB _ List.mem_cons_self⟩
  · exact ⟨hmemA _ (List.mem_cons_of_mem _ hA), hmemB _ (List.mem_cons_of_mem _ hB)⟩

/-- The common ancestor of two primary bundles is above both. -/
theorem commonAncestor_above {tree : BundleTree} (hwf : tree.WellFormed) {a b : BundleId}
    (ha : tree.IsPrimary a) (hb : tree.IsPrimary b) :
    tree.commonAncestor a b ∈ tree.chain a ∧ tree.commonAncestor a b ∈ tree.chain b := by
  obtain ⟨bundleA, hgetA⟩ := ha.exists_get?
  obtain ⟨bundleB, hgetB⟩ := hb.exists_get?
  exact commonAncestor_mem_chain hwf.rooted (lt_size_of_get? hgetA) (lt_size_of_get? hgetB)

/-- The chain of an ancestor is the rest of a chain. -/
theorem exists_chain_eq_append {tree : BundleTree} {id other : BundleId} (h : other ∈ tree.chain id) :
    ∃ below, tree.chain id = below ++ tree.chain other := by
  induction hn : id.index using Nat.strongRecOn generalizing id with
  | ind n ih =>
    subst hn
    rcases tree.chain_cases id with heq | ⟨parent, -, hlt, heq⟩
    · rw [heq, List.mem_singleton] at h
      exact ⟨[], by rw [h, List.nil_append]⟩
    · have hmem := h
      rw [heq] at hmem
      rcases List.mem_cons.1 hmem with rfl | hmem
      · exact ⟨[], rfl⟩
      · obtain ⟨below, hbelow⟩ := ih _ hlt hmem rfl
        exact ⟨id :: below, by rw [heq, hbelow, List.cons_append]⟩

/-- Along what two lists have in common at the front they agree. -/
theorem lastAgreed_append (common : BundleId) (front as bs : List BundleId) :
    lastAgreed common (front ++ as) (front ++ bs) = lastAgreed (front.getLastD common) as bs := by
  induction front generalizing common with
  | nil => rfl
  | cons c front ih =>
    rw [List.cons_append, List.cons_append, lastAgreed, if_pos rfl, ih, List.getLastD_cons]

/-- The chain of an ancestor, from the root on, ends with that ancestor. -/
theorem getLastD_reverse_chain (tree : BundleTree) (id common : BundleId) :
    (tree.chain id).reverse.getLastD common = id := by
  rw [chain, List.reverse_cons, List.getLastD_concat]

/-- A bundle that lies above two others is, or lies above, their common ancestor. -/
theorem mem_chain_commonAncestor {tree : BundleTree} {a b c : BundleId} (ha : c ∈ tree.chain a)
    (hb : c ∈ tree.chain b) : c ∈ tree.chain (tree.commonAncestor a b) := by
  obtain ⟨belowA, hbelowA⟩ := exists_chain_eq_append ha
  obtain ⟨belowB, hbelowB⟩ := exists_chain_eq_append hb
  have hcommon : tree.commonAncestor a b = lastAgreed c belowA.reverse belowB.reverse := by
    simp only [commonAncestor, hbelowA, hbelowB, List.reverse_append]
    rw [lastAgreed_append, getLastD_reverse_chain]
  rcases lastAgreed_mem c belowA.reverse belowB.reverse with heq | ⟨hmem, -⟩
  · rw [hcommon, heq]
    exact mem_chain_self tree c
  · rw [← hcommon, List.mem_reverse] at hmem
    have habove : tree.commonAncestor a b ∈ tree.chain a := by
      rw [hbelowA]
      exact List.mem_append_left _ hmem
    -- what stands in front of a chain is not part of it
    have hnot : tree.commonAncestor a b ∉ tree.chain c := by
      intro hchain
      have hsorted := tree.pairwise_chain a
      rw [hbelowA] at hsorted
      exact Nat.lt_irrefl _ ((List.pairwise_append.1 hsorted).2.2 _ hmem _ hchain)
    exact (mem_chain_total habove ha).resolve_left hnot

/-- The common ancestor of a bundle and one of its ancestors is that ancestor. -/
theorem commonAncestor_of_mem_chain {tree : BundleTree} {id other : BundleId}
    (h : other ∈ tree.chain id) : tree.commonAncestor id other = other := by
  obtain ⟨below, hbelow⟩ := exists_chain_eq_append h
  have hagreed := lastAgreed_append (((tree.chain other).reverse ++ below.reverse).headD id)
    (tree.chain other).reverse below.reverse []
  rw [List.append_nil, getLastD_reverse_chain] at hagreed
  simp only [commonAncestor, hbelow, List.reverse_append]
  rw [hagreed]
  cases below.reverse <;> rfl

/-- A bundle on demand lies below its parent. -/
theorem mem_chain_of_parent {tree : BundleTree} {id parent : BundleId}
    (hparent : tree.parentOf id = some parent) (hlt : parent.index < id.index) :
    parent ∈ tree.chain id := by
  rw [chain, hparent]
  simp only [hlt, if_true]
  exact List.mem_cons_of_mem _ (mem_chain_self tree parent)

end BundleTree
end ModuleBundler

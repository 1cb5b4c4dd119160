import Mathlib.Data.List.Forall2
import ModuleBundler.Proofs.Bundle.Reachability

/-!
# Layouts of matching graphs

A layout does not look at the ids of assets; it only compares them.  If the
assets of two graphs correspond to each other one to one, and corresponding
assets are of the same kind and import corresponding assets in the same order,
then the layouts of the two graphs correspond as well.

Main results:

- Theorem {lit}`Layout.Matches.hoist`: moving assets up keeps layouts matching.
- Theorem {lit}`Layout.Matches.place`: visits keep layouts matching.
- Theorem {lit}`Layout.ofGraph_matches`: matching graphs have matching layouts.
-/

namespace ModuleBundler

/-! ## Matching lists -/

section Lists

variable {α β : Type} {R : α → β → Prop}

/-- Matching lists have matching entries. -/
theorem getElem?_forall₂ {as : List α} {bs : List β} (h : List.Forall₂ R as bs) (i : Nat) :
    Option.Rel R as[i]? bs[i]? := by
  induction h generalizing i with
  | nil => exact .none
  | cons hab _ ih =>
    cases i with
    | zero => exact .some hab
    | succ i => exact ih i

/-- Lists still match when matching entries are changed alike. -/
theorem modify_forall₂ {as : List α} {bs : List β} (h : List.Forall₂ R as bs) {f : α → α} {g : β → β}
    (hchange : ∀ {a : α} {b : β}, R a b → R (f a) (g b)) (i : Nat) :
    List.Forall₂ R (as.modify i f) (bs.modify i g) := by
  induction h generalizing i with
  | nil => simp
  | cons hab hrest ih =>
    cases i with
    | zero => exact .cons (hchange hab) hrest
    | succ i => exact .cons hab (ih i)

/-- Whoever is in a list matches someone in a matching one. -/
theorem exists_mem_of_forall₂ {as : List α} {bs : List β} (h : List.Forall₂ R as bs) {a : α}
    (hmem : a ∈ as) : ∃ b ∈ bs, R a b := by
  induction h with
  | nil => cases hmem
  | cons hab _ ih =>
    rcases List.mem_cons.1 hmem with rfl | hmem
    · exact ⟨_, List.mem_cons_self, hab⟩
    · obtain ⟨b, hb, hab⟩ := ih hmem
      exact ⟨b, List.mem_cons_of_mem _ hb, hab⟩

variable {ρ : α → α → Prop} [DecidableEq α]

/-- Matching lists still match when matching values are put at their ends. -/
theorem includeLast_forall₂ (hone : Relator.BiUnique ρ) {a b : α} (hab : ρ a b) {as bs : List α}
    (h : List.Forall₂ ρ as bs) : List.Forall₂ ρ (includeLast a as) (includeLast b bs) := by
  have hmem : a ∈ as ↔ b ∈ bs := List.rel_mem hone hab h
  unfold includeLast
  by_cases ha : a ∈ as
  · have hb := hmem.1 ha
    simpa [ha, hb] using h
  · have hb : b ∉ bs := fun hb => ha (hmem.2 hb)
    simp only [List.contains_eq_mem, ha, hb, decide_false, Bool.false_eq_true, if_false]
    exact List.rel_append h (.cons hab .nil)

/-- Matching lists still match without matching values. -/
theorem filter_ne_forall₂ (hone : Relator.BiUnique ρ) {a b : α} (hab : ρ a b) {as bs : List α}
    (h : List.Forall₂ ρ as bs) : List.Forall₂ ρ (as.filter (· != a)) (bs.filter (· != b)) := by
  refine List.rel_filter ?_ h
  intro x y hxy
  have heq : x = a ↔ y = b := ⟨fun h => hone.2 (h ▸ hxy) hab, fun h => hone.1 (h ▸ hxy) hab⟩
  simp [heq]

end Lists

variable {ρ : AssetId → AssetId → Prop}

/-! ## Matching trees -/

/-- Whether two bundles differ only in the ids of assets. -/
structure Bundle.Matches (ρ : AssetId → AssetId → Prop) (a b : Bundle) : Prop where
  kind : b.kind = a.kind
  name : b.name = a.name
  start : Option.Rel ρ a.start b.start
  assets : List.Forall₂ ρ a.assets b.assets
  parent : b.parent = a.parent
  children : b.children = a.children
  siblings : b.siblings = a.siblings

namespace BundleTree

/-- Whether two trees differ only in the ids of assets. -/
structure Matches (ρ : AssetId → AssetId → Prop) (a b : BundleTree) : Prop where
  bundles : List.Forall₂ (Bundle.Matches ρ) a.bundles b.bundles
  root : b.root = a.root

namespace Matches

variable {a b : BundleTree}

theorem get? (h : Matches ρ a b) (id : BundleId) :
    Option.Rel (Bundle.Matches ρ) (a.get? id) (b.get? id) :=
  getElem?_forall₂ h.bundles id.index

theorem size (h : Matches ρ a b) : b.size = a.size :=
  h.bundles.length_eq.symm

/-- Matching bundles agree in what does not depend on ids. -/
theorem map_get? {α : Type} (h : Matches ρ a b) (id : BundleId) {f : Bundle → α}
    (hf : ∀ {x y : Bundle}, Bundle.Matches ρ x y → f y = f x) :
    (b.get? id).map f = (a.get? id).map f := by
  have hget := h.get? id
  generalize a.get? id = x, b.get? id = y at hget
  cases hget with
  | none => rfl
  | some hxy => exact congrArg some (hf hxy)

theorem nameOf (h : Matches ρ a b) (id : BundleId) : b.nameOf id = a.nameOf id :=
  congrArg (·.getD ⟨""⟩) (h.map_get? id fun hxy => hxy.name)

theorem kindOf (h : Matches ρ a b) (id : BundleId) : b.kindOf id = a.kindOf id :=
  congrArg (·.getD ⟨""⟩) (h.map_get? id fun hxy => hxy.kind)

theorem childrenOf (h : Matches ρ a b) (id : BundleId) : b.childrenOf id = a.childrenOf id :=
  congrArg (·.getD []) (h.map_get? id fun hxy => hxy.children)

theorem parentOf (h : Matches ρ a b) (id : BundleId) : b.parentOf id = a.parentOf id := by
  have hmap : (b.get? id).map Bundle.parent = (a.get? id).map Bundle.parent :=
    h.map_get? id fun hxy => hxy.parent
  unfold BundleTree.parentOf
  cases hx : a.get? id with
  | none =>
    rw [hx, Option.map_none, Option.map_eq_none_iff] at hmap
    rw [hmap]
  | some x =>
    rw [hx, Option.map_some] at hmap
    obtain ⟨y, hy, hparent⟩ := Option.map_eq_some_iff.1 hmap
    rw [hy]
    exact hparent

theorem chain (h : Matches ρ a b) (id : BundleId) : b.chain id = a.chain id := by
  induction hn : id.index using Nat.strongRecOn generalizing id with
  | ind n ih =>
    subst hn
    rw [BundleTree.chain, BundleTree.chain, h.parentOf id]
    cases hparent : a.parentOf id with
    | none => rfl
    | some parent =>
      by_cases hlt : parent.index < id.index
      · simp only [hlt, if_true, ih _ hlt parent rfl]
      · simp only [hlt, if_false]

theorem commonAncestor (h : Matches ρ a b) (x y : BundleId) :
    b.commonAncestor x y = a.commonAncestor x y := by
  unfold BundleTree.commonAncestor
  rw [h.chain x, h.chain y]

theorem subtree (h : Matches ρ a b) (id : BundleId) : b.subtree id = a.subtree id := by
  induction hn : a.size - id.index using Nat.strongRecOn generalizing id with
  | ind n ih =>
    subst hn
    rw [BundleTree.subtree, BundleTree.subtree, h.childrenOf id, h.size]
    congr 1
    refine List.flatMap_congr fun child _ => ?_
    by_cases hchild : id.index < child.index ∧ child.index < a.size
    · simp only [hchild, and_self, dite_true]
      exact ih _ (by omega) child rfl
    · simp only [hchild, dite_false]

theorem walk (h : Matches ρ a b) : b.walk = a.walk := by
  unfold BundleTree.walk
  rw [h.root]
  cases a.root with
  | none => rfl
  | some root => exact h.subtree root

/-! ### Growing alike -/

/-- Trees still match when matching bundles are changed alike. -/
theorem update (h : Matches ρ a b) (id : BundleId) {f g : Bundle → Bundle}
    (hchange : ∀ {x y : Bundle}, Bundle.Matches ρ x y → Bundle.Matches ρ (f x) (g y)) :
    Matches ρ (a.update id f) (b.update id g) :=
  ⟨modify_forall₂ h.bundles hchange id.index, h.root⟩

theorem push (h : Matches ρ a b) {x y : Bundle} (hxy : Bundle.Matches ρ x y) :
    Matches ρ (a.push x) (b.push y) := by
  have happend : Matches ρ { a with bundles := a.bundles ++ [x] } { b with bundles := b.bundles ++ [y] } :=
    ⟨List.rel_append h.bundles (.cons hxy .nil), h.root⟩
  unfold BundleTree.push
  rw [hxy.parent]
  dsimp only
  cases x.parent with
  | none => exact happend
  | some parent =>
    dsimp only
    rw [happend.size]
    refine happend.update parent fun hother => ⟨hother.kind, hother.name, hother.start, hother.assets,
      hother.parent, ?_, hother.siblings⟩
    rw [hother.children]

theorem createRoot (h : Matches ρ a b) (kind : Kind) (name : Path) {x y : AssetId} (hxy : ρ x y) :
    (b.createRoot kind name y).1 = (a.createRoot kind name x).1 ∧
      Matches ρ (a.createRoot kind name x).2 (b.createRoot kind name y).2 := by
  unfold BundleTree.createRoot
  rw [h.size]
  refine ⟨rfl, (h.push ?_).bundles, rfl⟩
  exact ⟨rfl, rfl, .some hxy, .nil, rfl, rfl, rfl⟩

theorem createChild (h : Matches ρ a b) (parent : BundleId) (kind : Kind) (name : Path) {x y : AssetId}
    (hxy : ρ x y) :
    (b.createChild parent kind name y).1 = (a.createChild parent kind name x).1 ∧
      Matches ρ (a.createChild parent kind name x).2 (b.createChild parent kind name y).2 := by
  unfold BundleTree.createChild
  rw [h.size]
  refine ⟨rfl, ?_⟩
  dsimp only
  apply h.push
  exact ⟨rfl, rfl, .some hxy, .nil, rfl, rfl, rfl⟩

theorem sibling (h : Matches ρ a b) (id : BundleId) (kind : Kind) :
    (b.sibling id kind).1 = (a.sibling id kind).1 ∧
      Matches ρ (a.sibling id kind).2 (b.sibling id kind).2 := by
  have hget := h.get? id
  unfold BundleTree.sibling
  generalize a.get? id = x, b.get? id = y at hget
  cases hget with
  | none => exact ⟨rfl, h⟩
  | some hxy =>
    dsimp only
    rw [hxy.kind, hxy.siblings, hxy.name, h.size]
    split
    · exact ⟨rfl, h⟩
    · split
      · exact ⟨rfl, h⟩
      · refine ⟨rfl, (h.push ⟨rfl, rfl, .none, .nil, rfl, rfl, rfl⟩).update id fun hother =>
          ⟨hother.kind, hother.name, hother.start, hother.assets, hother.parent, hother.children, ?_⟩⟩
        rw [hother.siblings]

theorem addMember (hone : Relator.BiUnique ρ) (h : Matches ρ a b) (id : BundleId) {x y : AssetId}
    (hxy : ρ x y) : Matches ρ (a.addMember id x) (b.addMember id y) :=
  h.update id fun hother => ⟨hother.kind, hother.name, hother.start,
    includeLast_forall₂ hone hxy hother.assets, hother.parent, hother.children, hother.siblings⟩

theorem removeMember (hone : Relator.BiUnique ρ) (h : Matches ρ a b) (id : BundleId) {x y : AssetId}
    (hxy : ρ x y) : Matches ρ (a.removeMember id x) (b.removeMember id y) :=
  h.update id fun hother => ⟨hother.kind, hother.name, hother.start,
    filter_ne_forall₂ hone hxy hother.assets, hother.parent, hother.children, hother.siblings⟩

end Matches
end BundleTree

/-! ## Matching layouts -/

/-- Whether two assets differ only in ids. -/
structure Asset.Matches (ρ : AssetId → AssetId → Prop) (a b : Asset) : Prop where
  identity : b.identity = a.identity
  kind : b.kind = a.kind
  package : b.package = a.package
  compiled : b.compiled = a.compiled
  hash : b.hash = a.hash
  home : b.home = a.home
  bundles : b.bundles = a.bundles
  links : List.Forall₂ (fun x y => y.1 = x.1 ∧ ρ x.2 y.2) a.links b.links

theorem Asset.Matches.bundleName {a b : Asset} (h : Asset.Matches ρ a b) (isMain : Bool) :
    b.bundleName isMain = a.bundleName isMain := by
  simp only [Asset.bundleName, Asset.bundleStem, h.identity, h.kind, h.package]

theorem Asset.Matches.generates {a b : Asset} (h : Asset.Matches ρ a b) : b.generates = a.generates := by
  funext kind
  simp only [Asset.generates, h.compiled]

/-- Whether corresponding assets of two graphs match. -/
def AssetGraph.Matches (ρ : AssetId → AssetId → Prop) (a b : AssetGraph) : Prop :=
  ∀ x y, ρ x y → Option.Rel (Asset.Matches ρ) (a.get? x) (b.get? y)

/-- Matching is symmetric. -/
theorem Asset.Matches.symm {a b : Asset} (h : Asset.Matches ρ a b) : Asset.Matches (flip ρ) b a where
  identity := h.identity.symm
  kind := h.kind.symm
  package := h.package.symm
  compiled := h.compiled.symm
  hash := h.hash.symm
  home := h.home.symm
  bundles := h.bundles.symm
  links := h.links.flip.imp fun _ _ hlink => ⟨hlink.1.symm, hlink.2⟩

theorem AssetGraph.Matches.symm {a b : AssetGraph} (h : AssetGraph.Matches ρ a b) :
    AssetGraph.Matches (flip ρ) b a := by
  intro y x hxy
  have hget := h x y hxy
  generalize a.get? x = v, b.get? y = w at hget
  cases hget with
  | none => exact .none
  | some hvw => exact .some hvw.symm

/-- In matching graphs every reachable asset corresponds to one. -/
theorem AssetGraph.Matches.exists_of_reaches {a b : AssetGraph} (h : AssetGraph.Matches ρ a b)
    {start start' x : AssetId} (hstart : ρ start start') (hreach : a.Reaches start x) : ∃ y, ρ x y := by
  induction hreach with
  | entry => exact ⟨start', hstart⟩
  | step _ himports ih =>
    obtain ⟨y, hxy⟩ := ih
    obtain ⟨-, asset, dep, hget, hlink⟩ := himports
    have hmatch := h _ y hxy
    rw [hget] at hmatch
    generalize b.get? y = w at hmatch
    cases hmatch with
    | some hvw =>
      obtain ⟨link', -, -, htarget⟩ := exists_mem_of_forall₂ hvw.links hlink
      exact ⟨link'.2, htarget⟩

/-- Graphs still match when corresponding assets are changed alike. -/
theorem AssetGraph.Matches.update (hone : Relator.BiUnique ρ) {a b : AssetGraph}
    (h : AssetGraph.Matches ρ a b) {x y : AssetId} (hxy : ρ x y) {f g : Asset → Asset}
    (hchange : ∀ {v w : Asset}, Asset.Matches ρ v w → Asset.Matches ρ (f v) (g w)) :
    AssetGraph.Matches ρ (a.update x f) (b.update y g) := by
  intro x' y' hxy'
  have hget := h x' y' hxy'
  by_cases hx : x' = x
  · subst hx
    have hy : y' = y := hone.2 hxy' hxy
    subst hy
    rw [get?_update_self, get?_update_self]
    generalize a.get? x' = v, b.get? y' = w at hget
    cases hget with
    | none => exact .none
    | some hvw => exact .some (hchange hvw)
  · have hy : y' ≠ y := fun hy => hx (hone.1 hxy' (hy ▸ hxy))
    rw [get?_update_of_ne hx, get?_update_of_ne hy]
    exact hget

namespace Layout

/-- Whether two layouts differ only in the ids of assets. -/
structure Matches (ρ : AssetId → AssetId → Prop) (a b : Layout) : Prop where
  graph : AssetGraph.Matches ρ a.graph b.graph
  tree : BundleTree.Matches ρ a.tree b.tree

/-- Whether two visits differ only in the ids of assets. -/
structure Visit.Matches (ρ : AssetId → AssetId → Prop) (a b : Visit) : Prop where
  asset : ρ a.asset b.asset
  via : b.via = a.via
  into : b.into = a.into

namespace Matches

variable {a b : Layout}

theorem homeOf (h : Matches ρ a b) {x y : AssetId} (hxy : ρ x y) : b.homeOf y = a.homeOf x := by
  have hget := h.graph x y hxy
  unfold Layout.homeOf
  generalize a.graph.get? x = v, b.graph.get? y = w at hget
  cases hget with
  | none => rfl
  | some hvw => exact hvw.home

variable (hone : Relator.BiUnique ρ)
include hone

theorem arrive (h : Matches ρ a b) {v w : Visit} (hvw : Visit.Matches ρ v w) :
    Matches ρ (a.arrive v) (b.arrive w) := by
  unfold Layout.arrive
  rw [hvw.via]
  cases v.via with
  | none => exact h
  | some dep =>
    exact ⟨h.graph.update hone hvw.asset fun hxy => ⟨hxy.identity, hxy.kind, hxy.package, hxy.compiled,
      hxy.hash, hxy.home, hxy.bundles, hxy.links⟩, h.tree⟩

/-! ### Moving up -/

theorem exchange {x y : AssetId} (hxy : ρ x y) (common bundle : BundleId)
    {s t : BundleTree × List BundleId} (h : BundleTree.Matches ρ s.1 t.1) (hbundles : t.2 = s.2) :
    BundleTree.Matches ρ (Layout.exchange x common s bundle).1 (Layout.exchange y common t bundle).1 ∧
      (Layout.exchange y common t bundle).2 = (Layout.exchange x common s bundle).2 := by
  obtain ⟨hid, htree⟩ := (h.removeMember hone bundle hxy).sibling common (s.1.kindOf bundle)
  unfold Layout.exchange
  dsimp only
  rw [h.kindOf bundle, hid, hbundles]
  exact ⟨htree.addMember hone _ hxy, rfl⟩

theorem exchangeAll {x y : AssetId} (hxy : ρ x y) (common : BundleId) (todo : List BundleId)
    {s t : BundleTree × List BundleId} (h : BundleTree.Matches ρ s.1 t.1) (hbundles : t.2 = s.2) :
    BundleTree.Matches ρ (todo.foldl (Layout.exchange x common) s).1
        (todo.foldl (Layout.exchange y common) t).1 ∧
      (todo.foldl (Layout.exchange y common) t).2 = (todo.foldl (Layout.exchange x common) s).2 := by
  induction todo generalizing s t with
  | nil => exact ⟨h, hbundles⟩
  | cons bundle rest ih =>
    obtain ⟨htree, hsame⟩ := exchange hone hxy common bundle h hbundles
    exact ih htree hsame

theorem relocate (h : Matches ρ a b) {x y : AssetId} (hxy : ρ x y) {v w : Asset}
    (hvw : Asset.Matches ρ v w) (common : BundleId) :
    Matches ρ (a.relocate v common x) (b.relocate w common y) := by
  obtain ⟨htree, hsame⟩ := @exchangeAll _ hone _ _ hxy common v.bundles (a.tree, v.bundles)
    (b.tree, v.bundles) h.tree rfl
  unfold Layout.relocate
  dsimp only
  rw [hvw.bundles]
  refine ⟨h.graph.update hone hxy fun hother => ⟨hother.identity, hother.kind, hother.package,
    hother.compiled, hother.hash, rfl, hsame, hother.links⟩, htree⟩

theorem follow (h : Matches ρ a b) {x y : AssetId} (hxy : ρ x y) (old common : BundleId) :
    List.Forall₂ ρ (a.follow old common x).1 (b.follow old common y).1 ∧
      Matches ρ (a.follow old common x).2 (b.follow old common y).2 := by
  have hget := h.graph x y hxy
  unfold Layout.follow
  generalize a.graph.get? x = v, b.graph.get? y = w at hget
  cases hget with
  | none => exact ⟨.nil, h⟩
  | some hvw =>
    dsimp only
    rw [hvw.home]
    split
    · refine ⟨?_, relocate hone h hxy hvw common⟩
      rw [List.forall₂_map_left_iff, List.forall₂_map_right_iff]
      exact hvw.links.imp fun _ _ hlink => hlink.2
    · exact ⟨.nil, h⟩

/-- Moving assets up keeps layouts matching. -/
theorem hoist {old common : BundleId} (hne : old ≠ common) {xs ys : List AssetId}
    (hids : List.Forall₂ ρ xs ys) (h : Matches ρ a b) :
    Matches ρ (Layout.hoist old common hne xs a) (Layout.hoist old common hne ys b) := by
  fun_induction Layout.hoist old common hne xs a generalizing ys b with
  | case1 layout =>
    cases hids
    rw [Layout.hoist]
    exact h
  | case2 id rest layout ih =>
    cases hids with
    | cons hxy hrest =>
      obtain ⟨hlinks, hlayout⟩ := follow hone h hxy old common
      rw [Layout.hoist]
      exact ih (List.rel_append hlinks hrest) hlayout

/-! ### Visiting -/

theorem share (h : Matches ρ a b) {x y : AssetId} (hxy : ρ x y) (into current : BundleId) :
    Matches ρ (a.share x into current) (b.share y into current) := by
  unfold Layout.share
  rw [h.tree.commonAncestor]
  dsimp only
  rw [h.tree.kindOf, h.tree.kindOf]
  split
  · split
    · exact hoist hone _ (.cons hxy .nil) h
    · exact h
  · exact h

omit hone in
theorem bundleFor {s t : BundleTree} (h : BundleTree.Matches ρ s t) (outDir : Path) {v w : Visit}
    (hvw : Visit.Matches ρ v w) {p q : Asset} (hpq : Asset.Matches ρ p q) :
    (bundleFor t outDir w q).1 = (Layout.bundleFor s outDir v p).1 ∧
      BundleTree.Matches ρ (Layout.bundleFor s outDir v p).2 (Layout.bundleFor t outDir w q).2 := by
  unfold Layout.bundleFor
  rw [hvw.into, hvw.via, hpq.kind, hpq.bundleName, hpq.bundleName]
  cases v.into with
  | none => exact h.createRoot _ _ hvw.asset
  | some parent =>
    dsimp only
    split
    · exact h.createChild _ _ _ hvw.asset
    · exact ⟨rfl, h⟩

theorem enter (h : Matches ρ a b) {x y : AssetId} (hxy : ρ x y) {p q : Asset}
    (hpq : Asset.Matches ρ p q) (bundle : BundleId) :
    Matches ρ (a.enter x p bundle) (b.enter y q bundle) := by
  obtain ⟨hid, hsibling⟩ := h.tree.sibling bundle p.kind
  unfold Layout.enter
  rw [hpq.kind]
  generalize a.tree.sibling bundle p.kind = found, b.tree.sibling bundle p.kind = found' at hid hsibling
  obtain ⟨target, s⟩ := found
  obtain ⟨target', t⟩ := found'
  dsimp only at hid hsibling ⊢
  subst hid
  have hadded := hsibling.addMember hone target' hxy
  rw [hpq.generates, hpq.bundles, hadded.kindOf]
  by_cases hboth : (target' != bundle && p.generates ((s.addMember target' x).kindOf bundle)) = true
  · simp only [hboth, if_true]
    exact ⟨h.graph.update hone hxy fun hother => ⟨hother.identity, hother.kind, hother.package,
      hother.compiled, hother.hash, rfl, rfl, hother.links⟩, hadded.addMember hone bundle hxy⟩
  · simp only [hboth, Bool.false_eq_true, if_false]
    exact ⟨h.graph.update hone hxy fun hother => ⟨hother.identity, hother.kind, hother.package,
      hother.compiled, hother.hash, rfl, rfl, hother.links⟩, hadded⟩

theorem visit (h : Matches ρ a b) (outDir : Path) {v w : Visit} (hvw : Visit.Matches ρ v w) :
    List.Forall₂ (Visit.Matches ρ) (a.visit outDir v).1 (b.visit outDir w).1 ∧
      Matches ρ (a.visit outDir v).2 (b.visit outDir w).2 := by
  have hget := h.graph v.asset w.asset hvw.asset
  have harrived := arrive hone h hvw
  unfold Layout.visit
  generalize a.graph.get? v.asset = x, b.graph.get? w.asset = y at hget
  cases hget with
  | none => exact ⟨.nil, h⟩
  | @some p q hpq =>
    dsimp only
    rw [hpq.home, hvw.into]
    split
    · exact ⟨.nil, share hone harrived hvw.asset _ _⟩
    · exact ⟨.nil, harrived⟩
    · obtain ⟨hid, htree⟩ := bundleFor harrived.tree outDir hvw hpq
      constructor
      · rw [List.forall₂_map_left_iff, List.forall₂_map_right_iff]
        refine hpq.links.imp fun link link' hlink => ⟨hlink.2, ?_, ?_⟩
        · exact congrArg some hlink.1
        · exact congrArg some hid
      · rw [hid]
        have hopened : Matches ρ ⟨(a.arrive v).graph, (Layout.bundleFor (a.arrive v).tree outDir v p).2⟩
            ⟨(b.arrive w).graph, (Layout.bundleFor (b.arrive w).tree outDir w q).2⟩ :=
          ⟨harrived.graph, htree⟩
        exact enter hone hopened hvw.asset hpq _

/-- Visits keep layouts matching. -/
theorem place (h : Matches ρ a b) (outDir : Path) {vs ws : List Visit}
    (hvisits : List.Forall₂ (Visit.Matches ρ) vs ws) :
    Matches ρ (Layout.place outDir vs a) (Layout.place outDir ws b) := by
  fun_induction Layout.place outDir vs a generalizing ws b with
  | case1 layout =>
    cases hvisits
    rw [Layout.place]
    exact h
  | case2 visit rest layout ih =>
    cases hvisits with
    | cons hvw hrest =>
      obtain ⟨hnext, hlayout⟩ := Matches.visit hone h outDir hvw
      rw [Layout.place]
      exact ih hlayout (List.rel_append hnext hrest)

end Matches

/-- Matching graphs have matching layouts. -/
theorem ofGraph_matches (hone : Relator.BiUnique ρ) {a b : AssetGraph} (h : AssetGraph.Matches ρ a b)
    (outDir : Path) {start start' : AssetId} (hstart : ρ start start') :
    Matches ρ (ofGraph a outDir start) (ofGraph b outDir start') := by
  have hempty : Matches ρ ⟨a, .empty⟩ ⟨b, .empty⟩ := ⟨h, .nil, rfl⟩
  exact hempty.place hone outDir (.cons ⟨hstart, rfl, rfl⟩ .nil)

end Layout
end ModuleBundler

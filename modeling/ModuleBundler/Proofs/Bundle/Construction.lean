import Mathlib.Logic.Relation
import ModuleBundler.Proofs.Bundle.Ancestry

/-!
# Trees that are built call by call

A bundle tree keeps its shape three times over: every bundle knows its parent,
every parent its children, and a bundle knows its siblings, which are children of
it as well.  Whatever is built on one main bundle, by making bundles on demand
below bundles and bundles for other kinds next to them, the three agree
({lit}`BundleTree.Coherent`).  Bundles on demand may lie below siblings here, and
siblings next to siblings.

Main results:

- Theorem {lit}`BundleTree.Coherent.makes`: each call keeps a tree coherent.
- Theorem {lit}`BundleTree.Constructed.coherent`: every tree that is built call by call is coherent.
- Theorem {lit}`BundleTree.Becomes.sibling`: whoever asks again for a sibling gets the same one.
- Theorem {lit}`BundleTree.Constructed.commonAncestor_greatest`: of the common ancestors of two bundles
  the innermost one is found.
-/

namespace ModuleBundler
namespace BundleTree

/-! ## Calls -/

/-- One call on a bundle of the tree: a bundle on demand is made below it, or the bundle for a kind next
to it is looked up, and made if it is missing. -/
inductive Makes (tree : BundleTree) : BundleTree → Prop
  | child {parent : BundleId} (h : parent.index < tree.size) (kind : Kind) (name : Path)
      (start : AssetId) : tree.Makes (tree.createChild parent kind name start).2
  | sibling {id : BundleId} (h : id.index < tree.size) (kind : Kind) :
      tree.Makes (tree.sibling id kind).2

/-- Any number of calls, one after another. -/
def Becomes : BundleTree → BundleTree → Prop :=
  Relation.ReflTransGen Makes

/-- Whether a tree is what some calls have made of a main bundle. -/
def Constructed (tree : BundleTree) : Prop :=
  ∃ kind name start, (empty.createRoot kind name start).2.Becomes tree

/-- A call extends the tree. -/
theorem Makes.extends {old new : BundleTree} (h : old.Makes new) : old.Extends new := by
  cases h with
  | child h kind name start =>
    obtain ⟨above, habove⟩ := exists_get?_of_lt_size h
    apply extends_push
    exact parent_lt_size rfl habove
  | sibling h kind => exact old.extends_sibling _ kind

theorem Becomes.extends {old new : BundleTree} (h : old.Becomes new) : old.Extends new := by
  induction h with
  | refl => exact .refl old
  | tail _ hmakes ih => exact ih.trans hmakes.extends

/-! ## What a new bundle changes -/

theorem get?_size (tree : BundleTree) : tree.get? ⟨tree.size⟩ = none :=
  List.getElem?_eq_none (Nat.le_refl _)

section Push

variable {tree : BundleTree} {bundle : Bundle}

@[simp]
theorem size_push : (tree.push bundle).size = tree.size + 1 := by
  unfold push
  cases bundle.parent with
  | none => simp [size]
  | some parent => simp [size, update]

@[simp]
theorem root_push : (tree.push bundle).root = tree.root := by
  unfold push
  cases bundle.parent <;> rfl

variable (hparent : ∀ parent, bundle.parent = some parent → parent.index < tree.size)
include hparent

/-- The new bundle has its parent; all others keep theirs. -/
theorem parentOf_push (id : BundleId) : (tree.push bundle).parentOf id =
    if id = ⟨tree.size⟩ then bundle.parent else tree.parentOf id := by
  unfold parentOf
  rw [get?_push hparent]
  by_cases hid : id = ⟨tree.size⟩
  · simp [hid]
  · have hne : id.index ≠ tree.size := fun heq => hid (congrArg BundleId.mk heq)
    rw [if_neg hne, if_neg hid]
    cases tree.get? id with
    | none => rfl
    | some other => simp [(tree.adopt_continues bundle id other).parent]

/-- Only the parent of a new bundle gets a child, at the end of its children. -/
theorem childrenOf_push (hchildren : bundle.children = []) (id : BundleId) :
    (tree.push bundle).childrenOf id =
      if bundle.parent = some id then tree.childrenOf id ++ [⟨tree.size⟩] else tree.childrenOf id := by
  unfold childrenOf
  rw [get?_push hparent]
  by_cases hid : id = ⟨tree.size⟩
  · have hnot : bundle.parent ≠ some ⟨tree.size⟩ := fun heq => Nat.lt_irrefl _ (hparent _ heq)
    simp [hid, hnot, hchildren, tree.get?_size]
  · have hne : id.index ≠ tree.size := fun heq => hid (congrArg BundleId.mk heq)
    rw [if_neg hne]
    unfold adopt
    cases hget : tree.get? id with
    | none =>
      have hnot : bundle.parent ≠ some id := by
        intro heq
        obtain ⟨above, habove⟩ := exists_get?_of_lt_size (hparent id heq)
        rw [hget] at habove
        cases habove
      simp [hnot]
    | some other => by_cases h : bundle.parent = some id <;> simp [h]

end Push

section Update

variable {tree : BundleTree} {id : BundleId} {change : Bundle → Bundle}

theorem parentOf_update (h : ∀ bundle, (change bundle).parent = bundle.parent) (other : BundleId) :
    (tree.update id change).parentOf other = tree.parentOf other := by
  unfold parentOf
  by_cases hother : other = id
  · subst hother
    rw [get?_update_self]
    cases tree.get? other <;> simp [h]
  · rw [get?_update_of_ne hother]

theorem childrenOf_update (h : ∀ bundle, (change bundle).children = bundle.children) (other : BundleId) :
    (tree.update id change).childrenOf other = tree.childrenOf other := by
  unfold childrenOf
  by_cases hother : other = id
  · subst hother
    rw [get?_update_self]
    cases tree.get? other <;> simp [h]
  · rw [get?_update_of_ne hother]

end Update

/-- A bundle below a bundle of the tree has a way to the root as well. -/
theorem Rooted.push {tree : BundleTree} (h : tree.Rooted) {bundle above : Bundle} {parent : BundleId}
    (hparent : bundle.parent = some parent) (habove : tree.get? parent = some above) :
    (tree.push bundle).Rooted := by
  have hlts := parent_lt_size hparent habove
  constructor
  case parent_lt =>
    intro id other hid
    rw [parentOf_push hlts] at hid
    split at hid
    · rename_i heq
      rw [heq]
      exact hlts other hid
    · exact h.parent_lt hid
  case root_zero =>
    intro id hid hnone
    rw [parentOf_push hlts, hparent] at hnone
    split at hnone
    · cases hnone
    · rename_i hne
      have hsmall : id.index ≠ tree.size := fun heq => hne (congrArg BundleId.mk heq)
      rw [size_push] at hid
      exact h.root_zero (by omega) hnone

/-! ## What lies beside -/

/-- Nothing lies beside a new bundle, and nothing new beside the others. -/
theorem beside?_of_push {tree : BundleTree} {bundle : Bundle}
    (hparent : ∀ parent, bundle.parent = some parent → parent.index < tree.size)
    (hsiblings : bundle.siblings = .empty) {id found : BundleId} {kind : Kind}
    (hfound : (tree.push bundle).beside? id kind = some found) (hne : (tree.push bundle).kindOf id ≠ kind) :
    tree.beside? id kind = some found ∧ tree.kindOf id ≠ kind := by
  obtain ⟨after, hafter, hpick⟩ := Option.bind_eq_some_iff.1 hfound
  have hkindAfter := hne
  rw [kindOf_of_get? hafter] at hkindAfter
  rw [if_neg hkindAfter] at hpick
  rcases (extends_push hparent).new_or_continues hafter with hnone | ⟨before, hbefore, -⟩
  · rw [(new_of_push hparent hnone hafter).2, hsiblings] at hpick
    cases hpick
  · have hkind : tree.kindOf id ≠ kind := by rwa [← (extends_push hparent).kindOf hbefore]
    have hid := lt_size_of_get? hbefore
    rw [get?_push hparent, if_neg (by omega), hbefore] at hafter
    cases hafter
    rw [siblings_adopt] at hpick
    have hown : before.kind ≠ kind := by rwa [kindOf_of_get? hbefore] at hkind
    exact ⟨by simp [beside?, hbefore, hown, hpick], hkind⟩

section WithSibling

variable {tree : BundleTree} {id : BundleId} {bundle : Bundle} {kind : Kind}

theorem parentOf_withSibling (other : BundleId) :
    (tree.withSibling id bundle kind).parentOf other =
      (tree.push (newSibling bundle id kind)).parentOf other := by
  apply parentOf_update
  exact fun _ => rfl

theorem childrenOf_withSibling (other : BundleId) :
    (tree.withSibling id bundle kind).childrenOf other =
      (tree.push (newSibling bundle id kind)).childrenOf other := by
  apply childrenOf_update
  exact fun _ => rfl

/-- What lies beside a bundle is the new sibling, or was noted before. -/
theorem beside?_of_withSibling (hget : tree.get? id = some bundle) {other found : BundleId} {wanted : Kind}
    (hfound : (tree.withSibling id bundle kind).beside? other wanted = some found)
    (hne : (tree.withSibling id bundle kind).kindOf other ≠ wanted) :
    (id = other ∧ kind = wanted ∧ ⟨tree.size⟩ = found) ∨
      (tree.push (newSibling bundle id kind)).beside? other wanted = some found := by
  obtain ⟨after, hafter, hpick⟩ := Option.bind_eq_some_iff.1 hfound
  rw [kindOf_of_get? hafter] at hne
  rw [if_neg hne] at hpick
  by_cases hother : other = id
  · subst hother
    rw [withSibling, get?_update_self, get?_push_newSibling hget] at hafter
    cases hafter
    by_cases htag : wanted.tag = kind.tag
    · rw [htag, Table.get?_put_self] at hpick
      exact .inl ⟨rfl, (congrArg Kind.mk htag).symm, Option.some.inj hpick⟩
    · rw [Table.get?_put_of_ne htag] at hpick
      exact .inr (by rw [beside?, get?_push_newSibling hget, Option.bind_some, if_neg hne, hpick])
  · rw [withSibling, get?_update_of_ne hother] at hafter
    exact .inr (by rw [beside?, hafter, Option.bind_some, if_neg hne, hpick])

end WithSibling

/-! ## Coherent trees -/

/-- The three accounts of the shape of a tree agree, and the tree has a root. -/
structure Coherent (tree : BundleTree) : Prop extends tree.Rooted where
  root : tree.root = some ⟨0⟩
  size_pos : 0 < tree.size
  mem_children : ∀ {parent child : BundleId},
    child ∈ tree.childrenOf parent ↔ tree.parentOf child = some parent
  /-- Children stand in the order in which they were made. -/
  ascending : ∀ parent, (tree.childrenOf parent).Pairwise fun a b => a.index < b.index
  /-- A bundle for another kind next to a bundle is a child of it, and of that kind. -/
  beside : ∀ {id found : BundleId} {kind : Kind}, tree.beside? id kind = some found →
    tree.kindOf id ≠ kind → tree.parentOf found = some id ∧ tree.kindOf found = kind

/-- What lies beside a bundle of a well-formed tree is a child of it. -/
theorem WellFormed.beside {tree : BundleTree} (hwf : tree.WellFormed) {id found : BundleId} {kind : Kind}
    (h : tree.beside? id kind = some found) (hne : tree.kindOf id ≠ kind) :
    tree.parentOf found = some id ∧ tree.kindOf found = kind := by
  refine ⟨?_, kindOf_of_beside? hwf h⟩
  obtain ⟨bundle, hget, hfound⟩ := Option.bind_eq_some_iff.1 h
  rw [kindOf_of_get? hget] at hne
  rw [if_neg hne] at hfound
  obtain ⟨other, hother, -, -, hparent⟩ := hwf.sibling hget hfound
  rw [parentOf_of_get? hother, hparent]

/-- The tree of a main bundle alone is coherent. -/
theorem coherent_createRoot (kind : Kind) (name : Path) (start : AssetId) :
    (empty.createRoot kind name start).2.Coherent := by
  obtain ⟨hwf, hget, -⟩ := createRoot_grows kind name start
  have hlone : ∀ {id : BundleId} {bundle : Bundle},
      (empty.createRoot kind name start).2.get? id = some bundle →
        bundle.parent = none ∧ bundle.children = [] := by
    intro id bundle hbundle
    have hlt := lt_size_of_get? hbundle
    have hzero : id = ⟨0⟩ := congrArg BundleId.mk (Nat.lt_one_iff.1 hlt)
    rw [hzero] at hbundle
    obtain rfl := Option.some.inj (hget.symm.trans hbundle)
    exact ⟨rfl, rfl⟩
  have hchildren : ∀ id, (empty.createRoot kind name start).2.childrenOf id = [] := by
    intro id
    unfold childrenOf
    cases hbundle : (empty.createRoot kind name start).2.get? id with
    | none => rfl
    | some bundle => exact (hlone hbundle).2
  have hparent : ∀ id, (empty.createRoot kind name start).2.parentOf id = none := by
    intro id
    unfold parentOf
    cases hbundle : (empty.createRoot kind name start).2.get? id with
    | none => rfl
    | some bundle => exact (hlone hbundle).1
  constructor
  case toRooted => exact hwf.rooted
  case root => rfl
  case size_pos => exact Nat.one_pos
  case mem_children => simp [hparent, hchildren]
  case ascending => simp [hchildren]
  case beside => exact hwf.beside

namespace Coherent

variable {tree : BundleTree} (h : tree.Coherent)
include h

/-- Children of a bundle come after it. -/
theorem lt_of_mem_children {parent child : BundleId} (hmem : child ∈ tree.childrenOf parent) :
    parent.index < child.index ∧ child.index < tree.size := by
  have hparent := h.mem_children.1 hmem
  exact ⟨h.parent_lt hparent, lt_size_of_parentOf hparent⟩

/-- A new bundle below a bundle of the tree leaves parents and children in agreement. -/
theorem push {bundle above : Bundle} {parent : BundleId} (hparent : bundle.parent = some parent)
    (habove : tree.get? parent = some above) (hchildren : bundle.children = [])
    (hsiblings : bundle.siblings = .empty) : (tree.push bundle).Coherent := by
  have hlts := parent_lt_size hparent habove
  constructor
  case toRooted => exact h.toRooted.push hparent habove
  case root => rw [root_push, h.root]
  case size_pos => rw [size_push]; exact Nat.succ_pos _
  case mem_children =>
    intro other child
    rw [childrenOf_push hlts hchildren, parentOf_push hlts]
    have hnew : (⟨tree.size⟩ : BundleId) ∉ tree.childrenOf other :=
      fun hmem => Nat.lt_irrefl _ (h.lt_of_mem_children hmem).2
    by_cases hchild : child = ⟨tree.size⟩
    · subst hchild
      by_cases hother : bundle.parent = some other <;> simp [hother, hnew]
    · by_cases hother : bundle.parent = some other <;> simp [hother, hchild, h.mem_children]
  case ascending =>
    intro other
    rw [childrenOf_push hlts hchildren]
    split
    · rw [List.pairwise_append]
      refine ⟨h.ascending other, List.pairwise_singleton _ _, fun child hmem new hnew => ?_⟩
      rw [List.mem_singleton.1 hnew]
      exact (h.lt_of_mem_children hmem).2
    · exact h.ascending other
  case beside =>
    intro id found kind hfound hne
    obtain ⟨hbeside, hkind⟩ := beside?_of_push hlts hsiblings hfound hne
    obtain ⟨hup, hown⟩ := h.beside hbeside hkind
    obtain ⟨other, hother⟩ := exists_get?_of_lt_size (lt_size_of_parentOf hup)
    exact ⟨by rw [(extends_push hlts).parentOf hother, hup],
      by rw [(extends_push hlts).kindOf hother, hown]⟩

/-- A missing sibling that is made and noted leaves the three accounts in agreement. -/
theorem withSibling {id : BundleId} {bundle : Bundle} {kind : Kind} (hget : tree.get? id = some bundle)
    (hmissing : bundle.siblings.get? kind.tag = none) : (tree.withSibling id bundle kind).Coherent := by
  have hpushed : (tree.push (newSibling bundle id kind)).Coherent := h.push rfl hget rfl rfl
  have hparent := @parentOf_withSibling tree id bundle kind
  have hchildren := @childrenOf_withSibling tree id bundle kind
  have hsize : (tree.withSibling id bundle kind).size = tree.size + 1 := by
    rw [BundleTree.withSibling, size_update, size_push]
  constructor
  case toRooted =>
    refine ⟨fun hid => hpushed.parent_lt (hparent _ ▸ hid), fun hid hnone => ?_⟩
    rw [hsize] at hid
    exact hpushed.root_zero (by rwa [size_push]) (hparent _ ▸ hnone)
  case root => exact hpushed.root
  case size_pos => rw [hsize]; exact Nat.succ_pos _
  case mem_children =>
    intro other child
    rw [hchildren, hparent]
    exact hpushed.mem_children
  case ascending =>
    intro other
    rw [hchildren]
    exact hpushed.ascending other
  case beside =>
    intro other found wanted hfound hne
    rcases beside?_of_withSibling hget hfound hne with ⟨rfl, rfl, rfl⟩ | hold
    · have hmade := @get?_withSibling_new _ _ _ kind hget
      exact ⟨parentOf_of_get? hmade, kindOf_of_get? hmade⟩
    · have hext := extends_withSibling hget hmissing
      obtain ⟨before, hbefore, -⟩ := Option.bind_eq_some_iff.1 hold
      obtain ⟨hup, hown⟩ := hpushed.beside hold (by rwa [← hext.kindOf hbefore])
      obtain ⟨sibling, hsibling⟩ := exists_get?_of_lt_size (lt_size_of_parentOf hup)
      exact ⟨by rw [hparent, hup], by rw [hext.kindOf hsibling, hown]⟩

/-- Each call keeps a tree coherent. -/
theorem makes {new : BundleTree} (hmakes : tree.Makes new) : new.Coherent := by
  cases hmakes with
  | @child parent hlt kind name start =>
    obtain ⟨above, habove⟩ := exists_get?_of_lt_size hlt
    have hpushed : (tree.push { kind, name, start := some start, parent := some parent }).Coherent :=
      h.push rfl habove rfl rfl
    exact hpushed
  | sibling hlt kind =>
    obtain ⟨bundle, hget⟩ := exists_get?_of_lt_size hlt
    rcases sibling_cases hget kind with ⟨-, heq⟩ | ⟨-, found, -, heq⟩ | ⟨-, hmissing, heq⟩
    · rwa [heq]
    · rwa [heq]
    · rw [heq]
      exact h.withSibling hget hmissing

end Coherent

/-! ## Runs of calls -/

theorem Becomes.coherent {old new : BundleTree} (h : old.Becomes new) (hold : old.Coherent) :
    new.Coherent := by
  induction h with
  | refl => exact hold
  | tail _ hmakes ih => exact ih.makes hmakes

/-- Every tree that is built call by call is coherent. -/
theorem Constructed.coherent {tree : BundleTree} (h : tree.Constructed) : tree.Coherent := by
  obtain ⟨kind, name, start, hbecomes⟩ := h
  exact hbecomes.coherent (coherent_createRoot kind name start)

/-- Whoever asks again for a sibling, however much later, gets the same one: a child of the bundle, of the
kind that was asked for. -/
theorem Becomes.sibling {tree later : BundleTree} {id : BundleId} {kind : Kind}
    (h : (tree.sibling id kind).2.Becomes later) (hcoherent : tree.Coherent)
    (hlt : id.index < tree.size) (hne : tree.kindOf id ≠ kind) :
    later.sibling id kind = ((tree.sibling id kind).1, later) ∧
      later.parentOf (tree.sibling id kind).1 = some id ∧
      later.kindOf (tree.sibling id kind).1 = kind := by
  obtain ⟨bundle, hget⟩ := exists_get?_of_lt_size hlt
  have hbeside := h.extends.beside? (beside?_sibling hget kind)
  have hkind : later.kindOf id = tree.kindOf id :=
    ((tree.extends_sibling id kind).trans h.extends).kindOf hget
  have hlater : later.Coherent := h.coherent (hcoherent.makes (.sibling hlt kind))
  exact ⟨sibling_of_beside? hbeside, hlater.beside hbeside (hkind ▸ hne)⟩

/-! ## Common ancestors -/

/-- The common ancestor of two bundles is above both and below all others that are, whichever of the two
is named first. -/
theorem Constructed.commonAncestor_greatest {tree : BundleTree} (h : tree.Constructed) {a b : BundleId}
    (ha : a.index < tree.size) (hb : b.index < tree.size) :
    tree.commonAncestor a b ∈ tree.chain a ∧ tree.commonAncestor a b ∈ tree.chain b ∧
      (∀ c, c ∈ tree.chain a → c ∈ tree.chain b → c ∈ tree.chain (tree.commonAncestor a b)) ∧
      tree.commonAncestor b a = tree.commonAncestor a b := by
  have hrooted := h.coherent.toRooted
  obtain ⟨haboveA, haboveB⟩ := commonAncestor_mem_chain hrooted ha hb
  obtain ⟨hswapB, hswapA⟩ := commonAncestor_mem_chain hrooted hb ha
  refine ⟨haboveA, haboveB, fun c => mem_chain_commonAncestor, ?_⟩
  exact mem_chain_antisymm (mem_chain_commonAncestor haboveB haboveA)
    (mem_chain_commonAncestor hswapA hswapB)

/-! ## A tree with a branch below a sibling -/

/-- A page with a stylesheet and a tab; below the stylesheet a module is loaded on demand. -/
def branching : BundleTree :=
  let main := (empty.createRoot .js ⟨"/dist/main.js"⟩ ⟨0⟩).2
  let paged := (main.createChild ⟨0⟩ .js ⟨"/dist/page.js"⟩ ⟨1⟩).2
  let styled := (paged.sibling ⟨1⟩ .css).2
  let late := (styled.createChild ⟨2⟩ .js ⟨"/dist/late.js"⟩ ⟨2⟩).2
  (late.createChild ⟨1⟩ .js ⟨"/dist/tab.js"⟩ ⟨3⟩).2

theorem constructed_branching : branching.Constructed :=
  ⟨_, _, _, Relation.ReflTransGen.refl
    |>.tail (@Makes.child _ ⟨0⟩ (by decide) .js ⟨"/dist/page.js"⟩ ⟨1⟩)
    |>.tail (@Makes.sibling _ ⟨1⟩ (by decide) .css)
    |>.tail (@Makes.child _ ⟨2⟩ (by decide) .js ⟨"/dist/late.js"⟩ ⟨2⟩)
    |>.tail (@Makes.child _ ⟨1⟩ (by decide) .js ⟨"/dist/tab.js"⟩ ⟨3⟩)⟩

theorem commonAncestor_branching : branching.Constructed ∧ 3 < branching.size ∧ 4 < branching.size ∧
    branching.commonAncestor ⟨3⟩ ⟨4⟩ ∈ branching.chain ⟨3⟩ ∧
    branching.commonAncestor ⟨3⟩ ⟨4⟩ ∈ branching.chain ⟨4⟩ ∧
    (∀ c, c ∈ branching.chain ⟨3⟩ → c ∈ branching.chain ⟨4⟩ →
      c ∈ branching.chain (branching.commonAncestor ⟨3⟩ ⟨4⟩)) ∧
    branching.commonAncestor ⟨4⟩ ⟨3⟩ = branching.commonAncestor ⟨3⟩ ⟨4⟩ :=
  ⟨constructed_branching, by decide, by decide,
    constructed_branching.commonAncestor_greatest (by decide) (by decide)⟩

end BundleTree
end ModuleBundler

import ModuleBundler.Bundle.Tree

/-!
# Growing bundle trees

A bundle tree only ever grows: bundles are added, and what a bundle is, where it
lies and which siblings it has is never changed again.  This module says so
({lit}`BundleTree.Extends`), and it collects what holds of every tree that has
grown from a main bundle ({lit}`BundleTree.WellFormed`).

Main results:

- Theorem {lit}`BundleTree.wellFormed_push`: a new bundle below a primary one keeps a tree well-formed.
- Theorem {lit}`BundleTree.sibling_grows`: finding or making a sibling extends the tree, changes no
  members and leads to a bundle of the kind that was asked for.
- Theorem {lit}`BundleTree.kindOf_of_beside?`: a bundle beside another one has the kind it was made for.
-/

namespace ModuleBundler

/-- A bundle after its tree has grown: it has the same nature and place, and it keeps its siblings. -/
structure Bundle.Continues (old new : Bundle) : Prop where
  kind : new.kind = old.kind
  name : new.name = old.name
  start : new.start = old.start
  parent : new.parent = old.parent
  siblings : ∀ {tag : String} {found : BundleId},
    old.siblings.get? tag = some found → new.siblings.get? tag = some found

namespace Bundle.Continues

/-- A bundle continues itself. -/
theorem refl (bundle : Bundle) : bundle.Continues bundle :=
  ⟨rfl, rfl, rfl, rfl, id⟩

/-- Growth can be done in steps. -/
theorem trans {a b c : Bundle} (hab : a.Continues b) (hbc : b.Continues c) : a.Continues c :=
  ⟨hbc.kind.trans hab.kind, hbc.name.trans hab.name, hbc.start.trans hab.start,
    hbc.parent.trans hab.parent, fun h => hbc.siblings (hab.siblings h)⟩

end Bundle.Continues

namespace BundleTree

/-! ## Looking up bundles -/

/-- The members of a bundle. -/
def membersOf (tree : BundleTree) (id : BundleId) : List AssetId :=
  ((tree.get? id).map Bundle.assets).getD []

/-- Whether a bundle was made for an asset.  The other bundles are siblings of these. -/
def IsPrimary (tree : BundleTree) (id : BundleId) : Prop :=
  ∃ bundle, tree.get? id = some bundle ∧ bundle.start.isSome = true

/-- The bundle for a kind of output next to a bundle, if it has been made. -/
def beside? (tree : BundleTree) (id : BundleId) (kind : Kind) : Option BundleId :=
  (tree.get? id).bind fun bundle =>
    if bundle.kind = kind then some id else bundle.siblings.get? kind.tag

theorem lt_size_of_get? {tree : BundleTree} {id : BundleId} {bundle : Bundle}
    (h : tree.get? id = some bundle) : id.index < tree.size := by
  obtain ⟨hlt, -⟩ := List.getElem?_eq_some_iff.1 h
  exact hlt

theorem get?_empty (id : BundleId) : empty.get? id = none := by
  simp [empty, get?]

theorem IsPrimary.exists_get? {tree : BundleTree} {id : BundleId} (h : tree.IsPrimary id) :
    ∃ bundle, tree.get? id = some bundle := by
  obtain ⟨bundle, hget, -⟩ := h
  exact ⟨bundle, hget⟩

theorem not_isPrimary_empty (id : BundleId) : ¬ empty.IsPrimary id := by
  intro h
  obtain ⟨bundle, hget⟩ := h.exists_get?
  rw [get?_empty] at hget
  cases hget

theorem kindOf_of_get? {tree : BundleTree} {id : BundleId} {bundle : Bundle}
    (h : tree.get? id = some bundle) : tree.kindOf id = bundle.kind := by
  simp [kindOf, h]

theorem parentOf_of_get? {tree : BundleTree} {id : BundleId} {bundle : Bundle}
    (h : tree.get? id = some bundle) : tree.parentOf id = bundle.parent := by
  simp [parentOf, h]

theorem membersOf_of_get? {tree : BundleTree} {id : BundleId} {bundle : Bundle}
    (h : tree.get? id = some bundle) : tree.membersOf id = bundle.assets := by
  simp [membersOf, h]

/-- A change of one bundle changes that bundle. -/
theorem get?_update_self (tree : BundleTree) (id : BundleId) (change : Bundle → Bundle) :
    (tree.update id change).get? id = (tree.get? id).map change := by
  simp only [get?, update, List.getElem?_modify_eq]
  rfl

/-- A change of one bundle changes no other bundle. -/
theorem get?_update_of_ne {id other : BundleId} (h : other ≠ id) (tree : BundleTree)
    (change : Bundle → Bundle) : (tree.update id change).get? other = tree.get? other := by
  have hne : id.index ≠ other.index := fun heq => h (congrArg BundleId.mk heq.symm)
  simp [get?, update, hne]

/-- A change of one bundle makes none. -/
theorem get?_update_of_none {tree : BundleTree} {other : BundleId} (h : tree.get? other = none) (id : BundleId)
    (change : Bundle → Bundle) : (tree.update id change).get? other = none := by
  by_cases hother : other = id
  · subst hother
    rw [get?_update_self, h]
    rfl
  · rw [get?_update_of_ne hother, h]

@[simp]
theorem size_update (tree : BundleTree) (id : BundleId) (change : Bundle → Bundle) :
    (tree.update id change).size = tree.size := by
  simp [size, update]

/-! ## Adding a bundle -/

/-- A bundle as the parent of a new bundle. -/
def adopt (tree : BundleTree) (bundle : Bundle) (id : BundleId) (parent : Bundle) : Bundle :=
  if bundle.parent = some id then { parent with children := parent.children ++ [⟨tree.size⟩] }
  else parent

theorem get?_append (tree : BundleTree) (bundle : Bundle) (id : BundleId) :
    ({ tree with bundles := tree.bundles ++ [bundle] } : BundleTree).get? id =
      if id.index = tree.size then some bundle else tree.get? id := by
  by_cases hid : id.index = tree.size
  · rw [if_pos hid]
    simp only [size] at hid
    simp [get?, hid]
  · rw [if_neg hid]
    simp only [size] at hid
    by_cases hlt : id.index < tree.bundles.length
    · exact List.getElem?_append_left hlt
    · simp only [get?]
      rw [List.getElem?_eq_none (by simp; omega), List.getElem?_eq_none (by omega)]

/-- The parent of a new bundle comes before it. -/
theorem parent_lt_size {tree : BundleTree} {bundle above : Bundle} {parent : BundleId}
    (hparent : bundle.parent = some parent) (habove : tree.get? parent = some above) :
    ∀ p, bundle.parent = some p → p.index < tree.size := by
  intro p hp
  have hsame : parent = p := Option.some.inj (hparent.symm.trans hp)
  rw [← hsame]
  exact lt_size_of_get? habove

/-- The new bundle is found under the next number, and only its parent takes note of it. -/
theorem get?_push {tree : BundleTree} {bundle : Bundle}
    (hparent : ∀ parent, bundle.parent = some parent → parent.index < tree.size) (id : BundleId) :
    (tree.push bundle).get? id =
      if id.index = tree.size then some bundle
      else (tree.get? id).map (tree.adopt bundle id) := by
  unfold push adopt
  cases hp : bundle.parent with
  | none =>
    simp only [get?_append, reduceCtorEq, if_false]
    cases tree.get? id <;> rfl
  | some parent =>
    have hlt := hparent parent hp
    have hsize : ({ tree with bundles := tree.bundles ++ [bundle] } : BundleTree).size - 1 =
        tree.size := by
      simp [size]
    simp only [hsize]
    by_cases hid : id = parent
    · subst hid
      rw [get?_update_self, get?_append, if_neg (by omega), if_neg (by omega)]
      simp
    · rw [get?_update_of_ne hid, get?_append]
      have hne : ¬ (some parent = some id) := fun heq => hid (Option.some.inj heq).symm
      simp only [hne, if_false]
      cases tree.get? id <;> rfl

/-- A bundle that was not there before another one was added is that one. -/
theorem new_of_push {tree : BundleTree} {bundle found : Bundle}
    (hparent : ∀ parent, bundle.parent = some parent → parent.index < tree.size) {id : BundleId}
    (hnone : tree.get? id = none) (hsome : (tree.push bundle).get? id = some found) :
    id = ⟨tree.size⟩ ∧ found = bundle := by
  rw [get?_push hparent, hnone] at hsome
  split at hsome
  · rename_i hid
    exact ⟨congrArg BundleId.mk hid, (Option.some.inj hsome).symm⟩
  · cases hsome

/-- A bundle that was there keeps its nature when another one is added. -/
theorem adopt_continues (tree : BundleTree) (bundle : Bundle) (id : BundleId) (parent : Bundle) :
    parent.Continues (tree.adopt bundle id parent) := by
  unfold adopt
  split
  · exact ⟨rfl, rfl, rfl, rfl, fun h => h⟩
  · exact .refl parent

theorem assets_adopt (tree : BundleTree) (bundle : Bundle) (id : BundleId) (parent : Bundle) :
    (tree.adopt bundle id parent).assets = parent.assets := by
  unfold adopt
  split <;> rfl

theorem siblings_adopt (tree : BundleTree) (bundle : Bundle) (id : BundleId) (parent : Bundle) :
    (tree.adopt bundle id parent).siblings = parent.siblings := by
  unfold adopt
  split <;> rfl

/-! ## Growth -/

/-- Whether every bundle of a tree continues in another tree. -/
def Extends (old new : BundleTree) : Prop :=
  ∀ ⦃id : BundleId⦄ ⦃bundle : Bundle⦄, old.get? id = some bundle →
    ∃ bundle', new.get? id = some bundle' ∧ bundle.Continues bundle'

namespace Extends

/-- A tree extends itself. -/
theorem refl (tree : BundleTree) : tree.Extends tree :=
  fun _ _ h => ⟨_, h, .refl _⟩

/-- Extensions can be done in steps. -/
theorem trans {a b c : BundleTree} (hab : a.Extends b) (hbc : b.Extends c) : a.Extends c := by
  intro id bundle h
  obtain ⟨bundle', h', hcontinues⟩ := hab h
  obtain ⟨bundle'', h'', hcontinues'⟩ := hbc h'
  exact ⟨bundle'', h'', hcontinues.trans hcontinues'⟩

variable {old new : BundleTree} (hext : old.Extends new)
include hext

/-- Primary bundles stay primary. -/
theorem isPrimary {id : BundleId} (h : old.IsPrimary id) : new.IsPrimary id := by
  obtain ⟨bundle, hget, hstart⟩ := h
  obtain ⟨bundle', hget', hcontinues⟩ := hext hget
  exact ⟨bundle', hget', by rw [hcontinues.start]; exact hstart⟩

/-- A bundle keeps its kind. -/
theorem kindOf {id : BundleId} {bundle : Bundle} (h : old.get? id = some bundle) :
    new.kindOf id = old.kindOf id := by
  obtain ⟨bundle', hget', hcontinues⟩ := hext h
  rw [kindOf_of_get? h, kindOf_of_get? hget', hcontinues.kind]

theorem kindOf_of_isPrimary {id : BundleId} (h : old.IsPrimary id) : new.kindOf id = old.kindOf id := by
  obtain ⟨bundle, hget⟩ := h.exists_get?
  exact hext.kindOf hget

/-- A bundle keeps its place. -/
theorem parentOf {id : BundleId} {bundle : Bundle} (h : old.get? id = some bundle) :
    new.parentOf id = old.parentOf id := by
  obtain ⟨bundle', hget', hcontinues⟩ := hext h
  rw [parentOf_of_get? h, parentOf_of_get? hget', hcontinues.parent]

/-- What lies beside a bundle stays there. -/
theorem beside? {id found : BundleId} {kind : Kind} (h : old.beside? id kind = some found) :
    new.beside? id kind = some found := by
  unfold BundleTree.beside? at h ⊢
  cases hget : old.get? id with
  | none => simp [hget] at h
  | some bundle =>
    obtain ⟨bundle', hget', hcontinues⟩ := hext hget
    simp only [hget, hget', Option.bind_some, hcontinues.kind] at h ⊢
    split at h
    · rename_i hkind
      rwa [if_pos hkind]
    · rename_i hkind
      rw [if_neg hkind]
      exact hcontinues.siblings h

/-- No bundle disappears. -/
theorem exists_get? {id : BundleId} {bundle : Bundle} (h : old.get? id = some bundle) :
    ∃ bundle', new.get? id = some bundle' := by
  obtain ⟨bundle', hget', -⟩ := hext h
  exact ⟨bundle', hget'⟩

/-- A bundle of the new tree is a new one, or it continues an old one. -/
theorem new_or_continues {id : BundleId} {after : Bundle} (h : new.get? id = some after) :
    old.get? id = none ∨ ∃ before, old.get? id = some before ∧ before.Continues after := by
  cases hget : old.get? id with
  | none => exact .inl rfl
  | some before =>
    obtain ⟨after', hafter', hcontinues⟩ := hext hget
    have hsame : after = after' := Option.some.inj (h.symm.trans hafter')
    exact .inr ⟨before, rfl, hsame ▸ hcontinues⟩

end Extends

/-- A change that lets a bundle continue extends the tree. -/
theorem extends_update {tree : BundleTree} {id : BundleId} {change : Bundle → Bundle}
    (h : ∀ bundle, tree.get? id = some bundle → bundle.Continues (change bundle)) :
    tree.Extends (tree.update id change) := by
  intro other bundle hget
  by_cases hother : other = id
  · subst hother
    refine ⟨change bundle, ?_, h bundle hget⟩
    rw [get?_update_self, hget]
    rfl
  · exact ⟨bundle, by rw [get?_update_of_ne hother, hget], .refl bundle⟩

/-- A new bundle extends the tree. -/
theorem extends_push {tree : BundleTree} {bundle : Bundle}
    (hparent : ∀ parent, bundle.parent = some parent → parent.index < tree.size) :
    tree.Extends (tree.push bundle) := by
  intro id other hget
  have hlt := lt_size_of_get? hget
  refine ⟨tree.adopt bundle id other, ?_, tree.adopt_continues bundle id other⟩
  rw [get?_push hparent, if_neg (by omega), hget]
  rfl

/-- A new bundle without members changes the members of no bundle. -/
theorem membersOf_push {tree : BundleTree} {bundle : Bundle}
    (hparent : ∀ parent, bundle.parent = some parent → parent.index < tree.size)
    (hassets : bundle.assets = []) (id : BundleId) :
    (tree.push bundle).membersOf id = tree.membersOf id := by
  unfold membersOf
  rw [get?_push hparent]
  by_cases hid : id.index = tree.size
  · have hnone : tree.get? id = none := List.getElem?_eq_none (by simp only [size] at hid; omega)
    simp [hid, hnone, hassets]
  · rw [if_neg hid]
    cases tree.get? id with
    | none => rfl
    | some other => simp [assets_adopt]

/-! ## Well-formed trees -/

/-- What holds of every bundle tree: parents are primary bundles that were made earlier, one bundle is the
root, and siblings are of the kind they were made for and belong to nobody else. -/
structure WellFormed (tree : BundleTree) : Prop where
  parent_lt : ∀ {id parent : BundleId} {bundle : Bundle}, tree.get? id = some bundle →
    bundle.parent = some parent → parent.index < id.index
  parent_primary : ∀ {id parent : BundleId} {bundle : Bundle}, tree.get? id = some bundle →
    bundle.parent = some parent → tree.IsPrimary parent
  root_zero : ∀ {id : BundleId} {bundle : Bundle}, tree.get? id = some bundle →
    bundle.parent = none → id.index = 0
  sibling : ∀ {id found : BundleId} {bundle : Bundle} {tag : String}, tree.get? id = some bundle →
    bundle.siblings.get? tag = some found →
      ∃ other, tree.get? found = some other ∧ other.kind.tag = tag ∧ other.start = none ∧
        other.parent = some id

/-- The tree without bundles is well-formed. -/
theorem wellFormed_empty : empty.WellFormed where
  parent_lt h _ := by simp [empty, get?] at h
  parent_primary h _ := by simp [empty, get?] at h
  root_zero h _ := by simp [empty, get?] at h
  sibling h _ := by simp [empty, get?] at h

/-- A bundle beside another one exists, and has the kind it was made for. -/
theorem beside?_spec {tree : BundleTree} (hwf : tree.WellFormed) {id found : BundleId} {kind : Kind}
    (h : tree.beside? id kind = some found) :
    ∃ bundle, tree.get? found = some bundle ∧ bundle.kind = kind := by
  unfold beside? at h
  cases hget : tree.get? id with
  | none => simp [hget] at h
  | some bundle =>
    simp only [hget, Option.bind_some] at h
    split at h
    · rename_i hkind
      obtain rfl := Option.some.inj h
      exact ⟨bundle, hget, hkind⟩
    · obtain ⟨other, hother, htag, -⟩ := hwf.sibling hget h
      exact ⟨other, hother, congrArg Kind.mk htag⟩

theorem kindOf_of_beside? {tree : BundleTree} (hwf : tree.WellFormed) {id found : BundleId} {kind : Kind}
    (h : tree.beside? id kind = some found) : tree.kindOf found = kind := by
  obtain ⟨bundle, hbundle, hkind⟩ := beside?_spec hwf h
  rw [kindOf_of_get? hbundle, hkind]

theorem exists_get?_of_beside? {tree : BundleTree} (hwf : tree.WellFormed) {id found : BundleId}
    {kind : Kind} (h : tree.beside? id kind = some found) :
    ∃ bundle, tree.get? found = some bundle := by
  obtain ⟨bundle, hbundle, -⟩ := beside?_spec hwf h
  exact ⟨bundle, hbundle⟩

/-- For its own kind a bundle stands beside itself. -/
theorem beside?_kindOf {tree : BundleTree} {id : BundleId} {bundle : Bundle}
    (h : tree.get? id = some bundle) : tree.beside? id (tree.kindOf id) = some id := by
  simp [beside?, h, kindOf_of_get? h]

/-- A well-formed tree stays well-formed when new bundles lie below primary ones and new siblings fit. -/
theorem WellFormed.grow {old new : BundleTree} (hwf : old.WellFormed) (hext : old.Extends new)
    (hold : ∀ {id found : BundleId} {before after : Bundle} {tag : String},
      old.get? id = some before → new.get? id = some after → after.siblings.get? tag = some found →
        before.siblings.get? tag = some found ∨
          ∃ other, new.get? found = some other ∧ other.kind.tag = tag ∧ other.start = none ∧
            other.parent = some id)
    (hnew : ∀ {id : BundleId} {bundle : Bundle}, old.get? id = none → new.get? id = some bundle →
      bundle.siblings = .empty ∧
        ∃ parent, bundle.parent = some parent ∧ parent.index < id.index ∧ old.IsPrimary parent) :
    new.WellFormed := by
  refine ⟨?_, ?_, ?_, ?_⟩
  · intro id parent after h hparent
    rcases hext.new_or_continues h with hnone | ⟨before, hbefore, hcontinues⟩
    · obtain ⟨-, parent', hparent', hlt, -⟩ := hnew hnone h
      rw [hparent, Option.some.injEq] at hparent'
      exact hparent' ▸ hlt
    · exact hwf.parent_lt hbefore (hcontinues.parent ▸ hparent)
  · intro id parent after h hparent
    rcases hext.new_or_continues h with hnone | ⟨before, hbefore, hcontinues⟩
    · obtain ⟨-, parent', hparent', -, hprimary⟩ := hnew hnone h
      rw [hparent, Option.some.injEq] at hparent'
      exact hext.isPrimary (hparent' ▸ hprimary)
    · exact hext.isPrimary (hwf.parent_primary hbefore (hcontinues.parent ▸ hparent))
  · intro id after h hparent
    rcases hext.new_or_continues h with hnone | ⟨before, hbefore, hcontinues⟩
    · obtain ⟨-, parent', hparent', -⟩ := hnew hnone h
      rw [hparent] at hparent'
      cases hparent'
    · exact hwf.root_zero hbefore (hcontinues.parent ▸ hparent)
  · intro id found after tag h hfound
    rcases hext.new_or_continues h with hnone | ⟨before, hbefore, -⟩
    · rw [(hnew hnone h).1] at hfound
      cases hfound
    · rcases hold hbefore h hfound with hsame | hfits
      · obtain ⟨other, hother, htag, hstart, hparent⟩ := hwf.sibling hbefore hsame
        obtain ⟨other', hother', hcontinues⟩ := hext hother
        exact ⟨other', hother', by rw [hcontinues.kind, htag], by rw [hcontinues.start, hstart],
          by rw [hcontinues.parent, hparent]⟩
      · exact hfits

/-! ## Members -/

/-- A change of a bundle that leaves its nature alone makes no bundle primary. -/
theorem isPrimary_of_update {tree : BundleTree} {id : BundleId} {change : Bundle → Bundle}
    (hstart : ∀ bundle, (change bundle).start = bundle.start) {other : BundleId}
    (h : (tree.update id change).IsPrimary other) : tree.IsPrimary other := by
  obtain ⟨bundle, hget, hsome⟩ := h
  by_cases hother : other = id
  · subst hother
    rw [get?_update_self] at hget
    obtain ⟨before, hbefore, rfl⟩ := Option.map_eq_some_iff.1 hget
    exact ⟨before, hbefore, by rw [← hstart]; exact hsome⟩
  · rw [get?_update_of_ne hother] at hget
    exact ⟨bundle, hget, hsome⟩

/-- A tree with other members is an extension. -/
theorem extends_withAssets (tree : BundleTree) (id : BundleId) (f : List AssetId → List AssetId) :
    tree.Extends (tree.update id fun bundle => { bundle with assets := f bundle.assets }) :=
  extends_update fun _ _ => ⟨rfl, rfl, rfl, rfl, fun h => h⟩

/-- A tree with other members is well-formed. -/
theorem wellFormed_withAssets {tree : BundleTree} (hwf : tree.WellFormed) (id : BundleId)
    (f : List AssetId → List AssetId) :
    (tree.update id fun bundle => { bundle with assets := f bundle.assets }).WellFormed := by
  refine hwf.grow (tree.extends_withAssets id f) ?_ ?_
  · intro other found before after tag hbefore hafter hfound
    by_cases hother : other = id
    · subst hother
      rw [get?_update_self, hbefore] at hafter
      cases hafter
      exact .inl hfound
    · rw [get?_update_of_ne hother, hbefore] at hafter
      cases hafter
      exact .inl hfound
  · intro other bundle hnone hsome
    rw [get?_update_of_none hnone] at hsome
    cases hsome

/-- A tree with other members has the same primary bundles. -/
theorem isPrimary_of_withAssets {tree : BundleTree} {id other : BundleId}
    {f : List AssetId → List AssetId}
    (h : (tree.update id fun bundle => { bundle with assets := f bundle.assets }).IsPrimary other) :
    tree.IsPrimary other := by
  refine isPrimary_of_update ?_ h
  exact fun _ => rfl

theorem membersOf_withAssets {tree : BundleTree} {id : BundleId} {bundle : Bundle}
    (h : tree.get? id = some bundle) (f : List AssetId → List AssetId) (other : BundleId) :
    (tree.update id fun bundle => { bundle with assets := f bundle.assets }).membersOf other =
      if other = id then f (tree.membersOf id) else tree.membersOf other := by
  by_cases hother : other = id
  · subst hother
    simp [membersOf, get?_update_self, h]
  · simp [membersOf, get?_update_of_ne hother, hother]

/-! ## Children and siblings -/

/-- A new bundle below a primary one keeps a tree well-formed. -/
theorem wellFormed_push {tree : BundleTree} (hwf : tree.WellFormed) {bundle : Bundle} {parent : BundleId}
    (hparent : bundle.parent = some parent) (hprimary : tree.IsPrimary parent)
    (hsiblings : bundle.siblings = .empty) : (tree.push bundle).WellFormed := by
  obtain ⟨above, habove⟩ := hprimary.exists_get?
  have hlt := lt_size_of_get? habove
  have hlts := parent_lt_size hparent habove
  refine hwf.grow (extends_push hlts) ?_ ?_
  · intro id found before after tag hbefore hafter hfound
    have hid := lt_size_of_get? hbefore
    rw [get?_push hlts, if_neg (by omega), hbefore] at hafter
    cases hafter
    rw [siblings_adopt] at hfound
    exact .inl hfound
  · intro id other hnone hsome
    obtain ⟨rfl, rfl⟩ := new_of_push hlts hnone hsome
    exact ⟨hsiblings, parent, hparent, hlt, hprimary⟩

/-- The bundle that is made when a sibling is missing. -/
def newSibling (bundle : Bundle) (id : BundleId) (kind : Kind) : Bundle :=
  { kind, name := bundle.name.withExtension kind.tag, parent := some id }

/-- The tree after a missing sibling was made. -/
def withSibling (tree : BundleTree) (id : BundleId) (bundle : Bundle) (kind : Kind) : BundleTree :=
  (tree.push (newSibling bundle id kind)).update id fun bundle =>
    { bundle with siblings := bundle.siblings.put kind.tag ⟨tree.size⟩ }

/-- A sibling is the bundle itself, a known sibling, or a new bundle. -/
theorem sibling_cases {tree : BundleTree} {id : BundleId} {bundle : Bundle}
    (h : tree.get? id = some bundle) (kind : Kind) :
    (bundle.kind = kind ∧ tree.sibling id kind = (id, tree)) ∨
    (bundle.kind ≠ kind ∧ ∃ found, bundle.siblings.get? kind.tag = some found ∧
      tree.sibling id kind = (found, tree)) ∨
    (bundle.kind ≠ kind ∧ bundle.siblings.get? kind.tag = none ∧
      tree.sibling id kind = (⟨tree.size⟩, tree.withSibling id bundle kind)) := by
  unfold sibling
  simp only [h]
  by_cases hkind : bundle.kind = kind
  · exact .inl ⟨hkind, by rw [if_pos hkind]⟩
  · simp only [if_neg hkind]
    cases hfound : bundle.siblings.get? kind.tag with
    | some found => exact .inr (.inl ⟨hkind, found, rfl, rfl⟩)
    | none => exact .inr (.inr ⟨hkind, rfl, rfl⟩)

section WithSibling

variable {tree : BundleTree} {id : BundleId} {bundle : Bundle} {kind : Kind}
  (h : tree.get? id = some bundle)
include h

/-- The bundle whose sibling is made is there after the sibling was added. -/
theorem get?_push_newSibling : (tree.push (newSibling bundle id kind)).get? id =
    some (tree.adopt (newSibling bundle id kind) id bundle) := by
  have hlt := lt_size_of_get? h
  rw [get?_push (parent_lt_size rfl h), if_neg (by omega), h]
  rfl

theorem get?_withSibling_new :
    (tree.withSibling id bundle kind).get? ⟨tree.size⟩ = some (newSibling bundle id kind) := by
  have hne : (⟨tree.size⟩ : BundleId) ≠ id := by
    rintro rfl
    exact Nat.lt_irrefl _ (lt_size_of_get? h)
  rw [withSibling, get?_update_of_ne hne, get?_push (parent_lt_size rfl h), if_pos rfl]

/-- Taking note of a missing sibling lets the bundle continue. -/
theorem extends_withSibling (hmissing : bundle.siblings.get? kind.tag = none) :
    (tree.push (newSibling bundle id kind)).Extends (tree.withSibling id bundle kind) := by
  refine extends_update fun other hother => ⟨rfl, rfl, rfl, rfl, ?_⟩
  intro tag found hfound
  rw [get?_push_newSibling h, Option.some.injEq] at hother
  subst hother
  rw [siblings_adopt] at hfound ⊢
  have htag : tag ≠ kind.tag := by
    rintro rfl
    rw [hmissing] at hfound
    cases hfound
  rw [Table.get?_put_of_ne htag, hfound]

theorem wellFormed_withSibling (hwf : tree.WellFormed) (hstart : bundle.start.isSome = true)
    (hmissing : bundle.siblings.get? kind.tag = none) :
    (tree.withSibling id bundle kind).WellFormed := by
  have hpushed : (tree.push (newSibling bundle id kind)).WellFormed :=
    wellFormed_push hwf rfl ⟨bundle, h, hstart⟩ rfl
  refine hpushed.grow (extends_withSibling h hmissing) ?_ ?_
  · intro other found before after tag hbefore hafter hfound
    by_cases hother : other = id
    · subst hother
      rw [withSibling, get?_update_self, hbefore] at hafter
      cases hafter
      by_cases htag : tag = kind.tag
      · subst htag
        simp only [Table.get?_put_self, Option.some.injEq] at hfound
        subst hfound
        exact .inr ⟨_, get?_withSibling_new h, rfl, rfl, rfl⟩
      · exact .inl (by simpa only [Table.get?_put_of_ne htag] using hfound)
    · rw [withSibling, get?_update_of_ne hother, hbefore] at hafter
      cases hafter
      exact .inl hfound
  · intro other found hnone hsome
    rw [withSibling, get?_update_of_none hnone] at hsome
    cases hsome

theorem beside?_withSibling (hkind : bundle.kind ≠ kind) :
    (tree.withSibling id bundle kind).beside? id kind = some ⟨tree.size⟩ := by
  rw [beside?, withSibling, get?_update_self, get?_push_newSibling h]
  simp [(tree.adopt_continues _ id bundle).kind, hkind]

theorem membersOf_withSibling (other : BundleId) :
    (tree.withSibling id bundle kind).membersOf other = tree.membersOf other := by
  rw [← membersOf_push (@parent_lt_size _ (newSibling bundle id kind) _ _ rfl h) rfl other]
  unfold membersOf withSibling
  by_cases hother : other = id
  · subst hother
    rw [get?_update_self, get?_push_newSibling h]
    rfl
  · rw [get?_update_of_ne hother]

end WithSibling

/-- Finding or making a sibling extends the tree. -/
theorem extends_sibling (tree : BundleTree) (id : BundleId) (kind : Kind) :
    tree.Extends (tree.sibling id kind).2 := by
  cases h : tree.get? id with
  | none =>
    simp only [sibling, h]
    exact .refl tree
  | some bundle =>
    rcases sibling_cases h kind with ⟨-, heq⟩ | ⟨-, found, -, heq⟩ | ⟨-, hmissing, heq⟩
    · rw [heq]
      exact .refl tree
    · rw [heq]
      exact .refl tree
    · rw [heq]
      exact (extends_push (@parent_lt_size _ (newSibling bundle id kind) _ _ rfl h)).trans
        (extends_withSibling h hmissing)

/-- The bundle that was found or made lies beside the other one. -/
theorem beside?_sibling {tree : BundleTree} {id : BundleId} {bundle : Bundle}
    (h : tree.get? id = some bundle) (kind : Kind) :
    (tree.sibling id kind).2.beside? id kind = some (tree.sibling id kind).1 := by
  rcases sibling_cases h kind with ⟨hkind, heq⟩ | ⟨hkind, found, hfound, heq⟩ | ⟨hkind, -, heq⟩
  · rw [heq]
    simp [beside?, h, hkind]
  · rw [heq]
    simp [beside?, h, hkind, hfound]
  · rw [heq]
    exact beside?_withSibling h hkind

/-- What lies beside a bundle is found, and nothing is made. -/
theorem sibling_of_beside? {tree : BundleTree} {id found : BundleId} {kind : Kind}
    (h : tree.beside? id kind = some found) : tree.sibling id kind = (found, tree) := by
  obtain ⟨bundle, hget, hfound⟩ := Option.bind_eq_some_iff.1 h
  rcases sibling_cases hget kind with ⟨hkind, heq⟩ | ⟨hkind, other, hother, heq⟩ | ⟨hkind, hnone, -⟩
  · rw [if_pos hkind, Option.some.injEq] at hfound
    rw [heq, hfound]
  · rw [if_neg hkind, hother, Option.some.injEq] at hfound
    rw [heq, hfound]
  · rw [if_neg hkind, hnone] at hfound
    cases hfound

/-- Finding or making the sibling of a primary bundle extends the tree, keeps it well-formed, leads to the
bundle in that place and changes no members. -/
theorem sibling_grows {tree : BundleTree} (hwf : tree.WellFormed) {id : BundleId}
    (hprimary : tree.IsPrimary id) (kind : Kind) :
    tree.Extends (tree.sibling id kind).2 ∧ (tree.sibling id kind).2.WellFormed ∧
      (tree.sibling id kind).2.beside? id kind = some (tree.sibling id kind).1 ∧
      ∀ other, (tree.sibling id kind).2.membersOf other = tree.membersOf other := by
  obtain ⟨bundle, h, hstart⟩ := hprimary
  suffices hkept : (tree.sibling id kind).2.WellFormed ∧
      ∀ other, (tree.sibling id kind).2.membersOf other = tree.membersOf other from
    ⟨tree.extends_sibling id kind, hkept.1, beside?_sibling h kind, hkept.2⟩
  rcases sibling_cases h kind with ⟨-, heq⟩ | ⟨-, found, -, heq⟩ | ⟨-, hmissing, heq⟩
  · rw [heq]
    exact ⟨hwf, fun _ => rfl⟩
  · rw [heq]
    exact ⟨hwf, fun _ => rfl⟩
  · rw [heq]
    exact ⟨wellFormed_withSibling h hwf hstart hmissing, membersOf_withSibling h⟩

/-- Of a tree with one more bundle, a primary bundle is the new one, or it was primary before. -/
theorem isPrimary_of_push {tree : BundleTree} {bundle : Bundle}
    (hparent : ∀ parent, bundle.parent = some parent → parent.index < tree.size) {other : BundleId}
    (h : (tree.push bundle).IsPrimary other) :
    other = ⟨tree.size⟩ ∧ bundle.start.isSome = true ∨ tree.IsPrimary other := by
  obtain ⟨found, hget, hsome⟩ := h
  rw [get?_push hparent] at hget
  split at hget
  · rename_i hid
    cases hget
    exact .inl ⟨congrArg BundleId.mk hid, hsome⟩
  · obtain ⟨before, hbefore, rfl⟩ := Option.map_eq_some_iff.1 hget
    exact .inr ⟨before, hbefore, by rw [← (tree.adopt_continues bundle other before).start]; exact hsome⟩

/-- Finding or making a sibling makes no bundle primary. -/
theorem isPrimary_of_sibling {tree : BundleTree} {id : BundleId} (hprimary : tree.IsPrimary id)
    (kind : Kind) {other : BundleId} (h : (tree.sibling id kind).2.IsPrimary other) :
    tree.IsPrimary other := by
  obtain ⟨bundle, hget, -⟩ := hprimary
  rcases sibling_cases hget kind with ⟨-, heq⟩ | ⟨-, found, -, heq⟩ | ⟨-, -, heq⟩
  · rwa [heq] at h
  · rwa [heq] at h
  · rw [heq] at h
    have hpushed : (tree.push (newSibling bundle id kind)).IsPrimary other := by
      refine isPrimary_of_update ?_ h
      exact fun _ => rfl
    rcases isPrimary_of_push (parent_lt_size rfl hget) hpushed with ⟨-, hstart⟩ | hbefore
    · cases hstart
    · exact hbefore

/-! ## Main bundles and bundles on demand -/

/-- The main bundle of an empty tree. -/
theorem createRoot_grows (kind : Kind) (name : Path) (start : AssetId) :
    (empty.createRoot kind name start).2.WellFormed ∧
      (empty.createRoot kind name start).2.get? (empty.createRoot kind name start).1 =
        some { kind, name, start := some start } ∧
      ∀ other, (empty.createRoot kind name start).2.membersOf other = [] := by
  have hget : ∀ id : BundleId, (empty.createRoot kind name start).2.get? id =
      if id.index = 0 then some { kind, name, start := some start } else none := by
    intro id
    exact @get?_push empty { kind, name, start := some start } (fun _ h => by cases h) id
  have hsome : ∀ {id : BundleId} {bundle : Bundle},
      (empty.createRoot kind name start).2.get? id = some bundle →
        id.index = 0 ∧ bundle = { kind, name, start := some start } := by
    intro id bundle h
    rw [hget] at h
    split at h
    · rename_i hid
      exact ⟨hid, (Option.some.inj h).symm⟩
    · cases h
  refine ⟨⟨?_, ?_, ?_, ?_⟩, hget _, ?_⟩
  · intro id parent bundle h hparent
    rw [(hsome h).2] at hparent
    cases hparent
  · intro id parent bundle h hparent
    rw [(hsome h).2] at hparent
    cases hparent
  · exact fun h _ => (hsome h).1
  · intro id found bundle tag h hfound
    rw [(hsome h).2] at hfound
    cases hfound
  · intro other
    unfold membersOf
    rw [hget]
    split <;> rfl

/-- A bundle on demand extends the tree and keeps it well-formed. -/
theorem createChild_grows {tree : BundleTree} (hwf : tree.WellFormed) {parent : BundleId}
    (hprimary : tree.IsPrimary parent) (kind : Kind) (name : Path) (start : AssetId) :
    tree.Extends (tree.createChild parent kind name start).2 ∧
      (tree.createChild parent kind name start).2.WellFormed ∧
      (tree.createChild parent kind name start).2.get? (tree.createChild parent kind name start).1 =
        some { kind, name, start := some start, parent := some parent } ∧
      ∀ other, (tree.createChild parent kind name start).2.membersOf other = tree.membersOf other := by
  obtain ⟨above, habove⟩ := hprimary.exists_get?
  have hlts := @parent_lt_size tree { kind, name, start := some start, parent := some parent } above
    parent rfl habove
  have hpushed : (tree.push { kind, name, start := some start, parent := some parent }).WellFormed :=
    wellFormed_push hwf rfl hprimary rfl
  refine ⟨extends_push hlts, hpushed, ?_, membersOf_push hlts rfl⟩
  simp only [createChild]
  rw [get?_push hlts, if_pos rfl]

end BundleTree
end ModuleBundler

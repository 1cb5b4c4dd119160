import ModuleBundler.Proofs.FileTree.Address
import ModuleBundler.Proofs.Path.Normalizing

/-!
# Paths from the current directory

A path spells an address from the current directory on, if a step to a parent directory
is taken to undo the step in front of it.  Its absolute form is the path of that address.
Both lead to the same place as long as the directories that the path steps out of are
there; they have to be directories and no links, since a link is left on another way.

Main results:

- Theorem {lit}`FileTree.absolute_eq_pathOf`: the absolute form of a path is the path of its address.
- Theorem {lit}`FileTree.absolute_join`: what is read from a directory is read from its absolute form.
- Theorem {lit}`FileTree.find_child`: a file of a directory is the file of its absolute form.
-/

namespace ModuleBundler

/-- The text of a name. -/
def Component.name? : Component → Option String
  | .name text => some text
  | _ => none

theorem Component.mem_filterMap_name? {components : List Component} {name : String} :
    name ∈ components.filterMap Component.name? ↔ .name name ∈ components := by
  rw [List.mem_filterMap]
  constructor
  · rintro ⟨component, hmem, hname⟩
    cases component with
    | name text => exact Option.some.inj hname ▸ hmem
    | root | here | up => cases hname
  · exact fun hmem => ⟨_, hmem, rfl⟩

namespace FileTree

/-- Where a component leads from an address. -/
def advance (here : Address) : Component → Address
  | .root => []
  | .here => here
  | .up => here.dropLast
  | .name text => here ++ [text]

/-- The address that a path spells from the current directory on. -/
def place (home : Address) (p : Path) : Address :=
  p.components.foldl advance home

/-- Whether there are directories all the way to an address, and their names can be looked for. -/
structure Solid (tree : FileTree) (address : Address) : Prop where
  nul : ∀ name ∈ address, '\x00' ∉ name.toList
  short : ∀ name ∈ address, name.utf8ByteSize ≤ maxName
  directories : ∀ front back, address = front ++ back → front ≠ [] →
    ∃ time, tree.at? front = some (.directory time)

/-- Whether the current directory of a tree is there. -/
structure Standing (tree : FileTree) : Prop where
  proper : Proper tree.home
  solid : tree.Solid tree.home

/-- Whether the directories that components step out of are there. -/
def Returns (tree : FileTree) (here : Address) (components : List Component) : Prop :=
  ∀ front back, components = front ++ .up :: back →
    front.foldl advance here ≠ [] ∧ tree.Solid (front.foldl advance here)

section Placing

variable {tree : FileTree} {here : Address} {components : List Component} {p : Path}

theorem Solid.outer {inner outer : Address} (h : tree.Solid inner) (hinside : outer <+: inner) :
    tree.Solid outer := by
  obtain ⟨more, rfl⟩ := hinside
  refine ⟨fun name hmem => h.nul name (List.mem_append_left _ hmem),
    fun name hmem => h.short name (List.mem_append_left _ hmem), ?_⟩
  rintro front back rfl hfront
  exact h.directories front (back ++ more) (List.append_assoc _ _ _) hfront

/-! ## Steps out of directories -/

theorem Returns.of_append {front back : List Component} (h : tree.Returns here (front ++ back)) :
    tree.Returns here front ∧ tree.Returns (front.foldl advance here) back := by
  constructor
  · rintro inner outer rfl
    exact h inner (outer ++ back) (by simp)
  · rintro inner outer rfl
    rw [← List.foldl_append]
    exact h (front ++ inner) outer (by simp)

theorem Returns.tail {component : Component} {rest : List Component} (h : tree.Returns here (component :: rest)) :
    tree.Returns (advance here component) rest :=
  (show tree.Returns here ([component] ++ rest) from h).of_append.2

theorem returns_cons_iff {component : Component} {rest : List Component} :
    tree.Returns here (component :: rest) ↔
      (component = .up → here ≠ [] ∧ tree.Solid here) ∧ tree.Returns (advance here component) rest := by
  refine ⟨fun h => ⟨?_, h.tail⟩, fun ⟨hup, hrest⟩ front back heq => ?_⟩
  · rintro rfl
    exact h [] rest rfl
  · cases front with
    | nil => exact hup (List.cons.inj heq).1
    | cons first more =>
      obtain ⟨rfl, rfl⟩ := List.cons.inj heq
      exact hrest more back rfl

theorem Returns.concat {component : Component} (h : tree.Returns here components) (hup : component ≠ .up) :
    tree.Returns here (components ++ [component]) := by
  intro front back heq
  rcases List.eq_nil_or_concat' back with rfl | ⟨more, last, rfl⟩
  · exact absurd (List.append_inj' heq rfl).2 (by simpa using hup)
  · rw [← List.cons_append, ← List.append_assoc] at heq
    exact h front more (List.append_inj' heq rfl).1

/-- Components that never step out of a directory need none to be there. -/
theorem returns_of_not_mem (h : .up ∉ components) : tree.Returns here components := by
  rintro front back rfl
  exact absurd (by simp) h

/-- Without steps to a parent directory names are added. -/
theorem foldl_advance (hroot : .root ∉ components) (hup : .up ∉ components) :
    components.foldl advance here = here ++ components.filterMap Component.name? := by
  induction components generalizing here with
  | nil => simp
  | cons component rest ih =>
    rw [List.mem_cons, not_or] at hroot hup
    rw [List.foldl_cons, ih hroot.2 hup.2]
    cases component with
    | root => exact absurd rfl hroot.1
    | up => exact absurd rfl hup.1
    | here => rfl
    | name text => simp [advance, Component.name?]

/-- A directory that is left again later on is there. -/
theorem Returns.solid {name : String} {rest : List Component} (h : tree.Returns here (.name name :: rest))
    (hroot : .root ∉ rest) (hup : .up ∈ rest) : tree.Solid (here ++ [name]) := by
  obtain ⟨front, back, rfl, hfront⟩ := List.eq_append_cons_of_mem hup
  obtain ⟨-, hsolid⟩ := h (.name name :: front) back rfl
  rw [List.foldl_cons, foldl_advance (fun hmem => hroot (List.mem_append_left _ hmem)) hfront] at hsolid
  exact hsolid.outer (List.prefix_append _ _)

/-- A component leads to a directory that is there, if it does so from one, and is left again. -/
theorem Solid.advance {component : Component} {rest : List Component} (hsolid : tree.Solid here)
    (h : tree.Returns here (component :: rest)) (hroot : .root ∉ rest)
    (hup : .up ∈ component :: rest) : tree.Solid (advance here component) := by
  cases component with
  | root => exact hsolid.outer List.nil_prefix
  | here => exact hsolid
  | up => exact hsolid.outer (List.dropLast_prefix _)
  | name text => exact h.solid hroot (by simpa using hup)

/-! ## Places of paths -/

/-- A path spells its address from the root or from the current directory on. -/
theorem place_eq (home : Address) (p : Path) :
    place home p = p.inner.foldl advance (if p.isAbsolute then [] else home) := by
  obtain ⟨front, hcomponents, hfront⟩ := p.exists_components
  rw [place, hcomponents, List.foldl_append]
  rcases hfront with ⟨rfl, habsolute⟩ | ⟨rfl | rfl, hrelative⟩
  · rw [habsolute]
    rfl
  · rw [hrelative]
    rfl
  · rw [hrelative]
    rfl

theorem Returns.inner (h : tree.Returns here p.components) :
    tree.Returns (if p.isAbsolute then [] else here) p.inner := by
  obtain ⟨front, hcomponents, hfront⟩ := p.exists_components
  rw [hcomponents] at h
  rcases hfront with ⟨rfl, habsolute⟩ | ⟨rfl | rfl, hrelative⟩
  · rw [habsolute]
    exact h.of_append.2
  · rw [hrelative]
    exact h.of_append.2
  · rw [hrelative]
    exact h.of_append.2

theorem root_not_mem_inner (p : Path) : .root ∉ p.inner := by
  intro hmem
  rcases Path.eq_up_or_name_of_mem_inner hmem with heq | ⟨text, heq⟩ <;> cases heq

theorem components_pathOf_not_mem (h : Proper here) : .up ∉ (pathOf here).components := by
  rw [components_pathOf h]
  simp

theorem place_pathOf (h : Proper here) (home : Address) : place home (pathOf here) = here := by
  have hnames : (here.map Component.name).filterMap Component.name? = here := by
    rw [List.filterMap_map]
    exact List.filterMap_some
  rw [place, components_pathOf h, List.foldl_cons, foldl_advance (by simp) (by simp), hnames]
  rfl

theorem proper_foldl (hhere : Proper here) (h : ∀ name, .name name ∈ components → Path.IsFileName name) :
    Proper (components.foldl advance here) := by
  induction components generalizing here with
  | nil => exact hhere
  | cons component rest ih =>
    refine ih ?_ fun name hmem => h name (List.mem_cons_of_mem _ hmem)
    cases component with
    | root => exact fun name hmem => absurd hmem List.not_mem_nil
    | here => exact hhere
    | up => exact hhere.dropLast
    | name text => exact hhere.append (h text List.mem_cons_self)

/-- Names in paths can be names of files. -/
theorem isFileName_of_mem_components {name : String} (h : .name name ∈ p.components) : Path.IsFileName name := by
  have hstep : Step.name name ∈ (Step.ofPath p).filter (· != .stay) := by
    rw [Step.filter_ofPath, List.mem_filterMap]
    exact ⟨_, h, rfl⟩
  exact isFileName_of_mem_ofPath (List.mem_filter.1 hstep).1

theorem proper_place (h : Proper here) (p : Path) : Proper (place here p) :=
  proper_foldl h fun _ hmem => isFileName_of_mem_components hmem

/-! ## Absolute forms -/

/-- What normalizing keeps of the path of an address. -/
def stack (address : Address) : List Component :=
  address.reverse.map .name ++ [.root]

theorem normalStep_stack {component : Component} (hroot : component ≠ .root) (hup : component = .up → here ≠ []) :
    Path.normalStep (stack here) component = stack (advance here component) := by
  cases component with
  | root => exact absurd rfl hroot
  | here => rfl
  | name text => simp [stack, advance, Path.normalStep]
  | up =>
    obtain ⟨outer, last, rfl⟩ := (List.eq_nil_or_concat' here).resolve_left (hup rfl)
    simp [stack, advance, Path.normalStep]

theorem foldl_stack (hroot : .root ∉ components) (h : tree.Returns here components) :
    components.foldl Path.normalStep (stack here) = stack (components.foldl advance here) := by
  induction components generalizing here with
  | nil => rfl
  | cons component rest ih =>
    rw [List.mem_cons, not_or] at hroot
    rw [List.foldl_cons, List.foldl_cons, normalStep_stack (Ne.symm hroot.1), ih hroot.2 h.tail]
    rintro rfl
    exact (h [] rest rfl).1

/-- What normalizing keeps of a path that is made absolute. -/
theorem foldl_place (hproper : Proper here) (h : tree.Returns here p.components) :
    p.components.foldl Path.normalStep (if p.isAbsolute then [] else Path.normalStack (pathOf here).components) =
      stack (place here p) := by
  have hstart : Path.normalStack (pathOf here).components = stack here := by
    have hnames : tree.Returns [] (here.map Component.name) := returns_of_not_mem (by simp)
    have hplace := place_pathOf hproper here
    rw [place, components_pathOf hproper, List.foldl_cons] at hplace
    rw [Path.normalStack, components_pathOf hproper, List.foldl_cons]
    exact (foldl_stack (by simp) hnames).trans (congrArg stack hplace)
  rw [hstart, place_eq]
  have hinner := foldl_stack (root_not_mem_inner p) h.inner
  obtain ⟨front, hcomponents, hfront⟩ := p.exists_components
  rw [hcomponents, List.foldl_append]
  rcases hfront with ⟨rfl, habsolute⟩ | ⟨rfl | rfl, hrelative⟩
  · rw [habsolute] at hinner ⊢
    exact hinner
  · rw [hrelative] at hinner ⊢
    exact hinner
  · rw [hrelative] at hinner ⊢
    exact hinner

/-- The components that are kept in front of a path when it is made absolute. -/
theorem absolute_eq (cwd p : Path) :
    Path.absolute cwd p =
      .ofComponents (p.components.foldl Path.normalStep
        (if p.isAbsolute then [] else Path.normalStack cwd.components)).reverse := by
  unfold Path.absolute Path.normalize
  by_cases habsolute : p.isAbsolute = true
  · rw [if_pos habsolute, if_pos habsolute, Path.normalStack]
  · have hrelative : p.isAbsolute = false := by simpa using habsolute
    rw [if_neg habsolute, if_neg habsolute, Path.normalStack, Path.foldl_join cwd hrelative, Path.normalStack]

/-- The absolute form of a path is the path of its address. -/
theorem absolute_eq_pathOf (hproper : Proper here) (h : tree.Returns here p.components) :
    Path.absolute (pathOf here) p = pathOf (place here p) := by
  rw [absolute_eq, foldl_place hproper h, stack]
  simp [Path.ofComponents, Path.textOf, pathOf, Component.text, Function.comp_def]

/-- What is read from a directory is read from its absolute form. -/
theorem absolute_join (hproper : Proper here) (h : tree.Returns here p.components) (q : Path) :
    Path.absolute (pathOf here) (p.join q) = Path.absolute (pathOf here) ((pathOf (place here p)).join q) := by
  by_cases habsolute : q.isAbsolute = true
  · rw [Path.join, Path.join, if_pos habsolute, if_pos habsolute]
  · have hrelative : q.isAbsolute = false := by simpa using habsolute
    have hplace : tree.Returns here (pathOf (place here p)).components :=
      returns_of_not_mem (components_pathOf_not_mem (proper_place hproper p))
    have hkept := foldl_place hproper hplace
    rw [place_pathOf (proper_place hproper p)] at hkept
    rw [absolute_eq, absolute_eq, Path.foldl_join p hrelative, Path.foldl_join _ hrelative, Path.isAbsolute_join,
      Path.isAbsolute_join, hrelative, Bool.or_false, Bool.or_false, foldl_place hproper h, hkept]

end Placing

/-! ## Directories above -/

section Above

variable {tree : FileTree} {home : Address} {p directory : Path}

theorem place_of_parent? (home : Address) (h : p.parent? = some directory) : ∃ component,
    component ≠ .root ∧ p.components = directory.components ++ [component] ∧
      place home p = advance (place home directory) component := by
  obtain ⟨component, hroot, hcomponents⟩ := Path.exists_components_of_parent? h
  refine ⟨component, hroot, hcomponents, ?_⟩
  rw [place, hcomponents, List.foldl_append]
  rfl

theorem isAbsolute_of_parent? (h : p.parent? = some directory) : directory.isAbsolute = p.isAbsolute := by
  obtain ⟨component, hroot, hcomponents⟩ := Path.exists_components_of_parent? h
  rw [Bool.eq_iff_iff, Path.isAbsolute_iff_head?, Path.isAbsolute_iff_head?, hcomponents]
  cases directory.components with
  | nil => simp [hroot]
  | cons first rest => rfl

/-- What is in the directories above a path is in the path. -/
theorem prefix_of_mem_ancestors : ∀ other ∈ p :: p.ancestors, other.components <+: p.components := by
  induction p using Path.directory_induction with
  | bottom p hparent =>
    rw [Path.ancestors_of_no_parent hparent]
    simp
  | step p directory hparent ih =>
    obtain ⟨component, -, hcomponents⟩ := Path.exists_components_of_parent? hparent
    rw [Path.ancestors_of_parent? hparent, List.forall_mem_cons]
    refine ⟨List.prefix_rfl, fun other hmem => (ih other hmem).trans ?_⟩
    rw [hcomponents]
    exact List.prefix_append _ _

theorem Returns.of_mem_ancestors (h : tree.Returns home p.components) :
    ∀ other ∈ p :: p.ancestors, tree.Returns home other.components := by
  intro other hmem
  obtain ⟨more, hmore⟩ := prefix_of_mem_ancestors other hmem
  rw [← hmore] at h
  exact h.of_append.1

/-- A path that lies in no directory has no components but the root. -/
theorem inner_of_no_parent (h : p.parent? = none) : p.inner = [] := by
  obtain hnil | ⟨more, last, hinner⟩ := List.eq_nil_or_concat' p.inner
  · exact hnil
  · have hroot : last ≠ .root := fun heq => root_not_mem_inner p (by simp [hinner, heq])
    obtain ⟨front, hcomponents, -⟩ := p.exists_components
    have hlast : p.lastComponent? = some last := by
      rw [Path.lastComponent?, hcomponents, hinner, ← List.append_assoc, List.getLast?_concat]
    obtain ⟨directory, hdirectory⟩ := Path.exists_parent?_iff.2 ⟨last, hlast, hroot⟩
    rw [h] at hdirectory
    cases hdirectory

/-- An absolute path goes through all directories above its address. -/
theorem exists_place (habsolute : p.isAbsolute = true) {outer : Address} (hinside : outer <+: place home p) :
    ∃ other ∈ p :: p.ancestors, place home other = outer := by
  induction p using Path.directory_induction with
  | bottom p hparent =>
    have hinner := inner_of_no_parent hparent
    rw [place_eq, hinner, if_pos habsolute] at hinside
    refine ⟨p, List.mem_cons_self, ?_⟩
    rw [place_eq, hinner, if_pos habsolute]
    exact (List.prefix_nil.1 hinside).symm
  | step p directory hparent ih =>
    obtain ⟨component, hroot, -, hplace⟩ := place_of_parent? home hparent
    rw [Path.ancestors_of_parent? hparent]
    by_cases hhere : outer = place home p
    · exact ⟨p, List.mem_cons_self, hhere.symm⟩
    · have houter : outer <+: place home directory := by
        rw [hplace] at hinside hhere
        cases component with
        | root => exact absurd rfl hroot
        | here => exact hinside
        | up => exact hinside.trans (List.dropLast_prefix _)
        | name text => exact (List.prefix_concat_iff.1 hinside).resolve_left hhere
      obtain ⟨other, hmem, hother⟩ := ih ((isAbsolute_of_parent? hparent).trans habsolute) houter
      exact ⟨other, List.mem_cons_of_mem _ hmem, hother⟩

/-- Without steps to a parent directory a path goes through directories above its address alone. -/
theorem prefix_of_not_mem (hup : .up ∉ p.components) :
    ∀ other ∈ p :: p.ancestors, place home other <+: place home p := by
  induction p using Path.directory_induction with
  | bottom p hparent =>
    rw [Path.ancestors_of_no_parent hparent]
    simp
  | step p directory hparent ih =>
    obtain ⟨component, hroot, hcomponents, hplace⟩ := place_of_parent? home hparent
    rw [hcomponents, List.mem_append, not_or] at hup
    rw [Path.ancestors_of_parent? hparent, List.forall_mem_cons]
    refine ⟨List.prefix_rfl, fun other hmem => (ih hup.1 other hmem).trans ?_⟩
    rw [hplace]
    cases component with
    | root => exact absurd rfl hroot
    | here => exact List.prefix_rfl
    | up => simp at hup
    | name text => exact List.prefix_append _ _

theorem fileName?_pathOf_eq {address : Address} (h : Proper address) :
    (pathOf address).fileName? = address.getLast? := by
  rcases List.eq_nil_or_concat' address with rfl | ⟨outer, name, rfl⟩
  · exact fileName?_root
  · rw [fileName?_pathOf h, List.getLast?_concat]

/-- Such a path ends with the name at its place, unless it has no name. -/
theorem fileName?_of_not_mem (hproper : Proper home) (hup : .up ∉ p.components) :
    p.fileName? = (pathOf (place home p)).fileName? ∨ p.fileName? = none ∧ place home p = home := by
  rw [fileName?_pathOf_eq (proper_place hproper p)]
  obtain ⟨front, hcomponents, hfront⟩ := p.exists_components
  unfold place Path.fileName? Path.lastComponent?
  rw [hcomponents] at hup ⊢
  obtain hinner | ⟨more, last, hinner⟩ := List.eq_nil_or_concat' p.inner
  · rw [hinner, List.append_nil]
    rcases hfront with ⟨rfl, -⟩ | ⟨rfl | rfl, -⟩
    · exact .inl rfl
    · exact .inr ⟨rfl, rfl⟩
    · exact .inr ⟨rfl, rfl⟩
  · have hlast : last ∈ p.inner := by simp [hinner]
    rcases Path.eq_up_or_name_of_mem_inner hlast with rfl | ⟨text, rfl⟩
    · exact absurd (List.mem_append_right _ hlast) hup
    · rw [hinner, ← List.append_assoc, List.getLast?_concat, List.foldl_append]
      exact .inl List.getLast?_concat.symm

/-- The directories above the path of an address are the paths of the addresses above it. -/
theorem mem_ancestors_pathOf_iff {address outer : Address} {name : String} (h : Proper (address ++ [name]))
    (houter : Proper outer) : pathOf outer ∈ (pathOf (address ++ [name])).ancestors ↔ outer <+: address := by
  have heq {other : Address} (hother : Proper other) (hsame : pathOf outer = pathOf other) : outer = other :=
    pathOf_injective houter hother (by rw [hsame]; exact Path.beq_refl _)
  rw [ancestors_pathOf h]
  constructor
  · intro hmem
    rcases List.mem_cons.1 hmem with hsame | hmem
    · exact (heq h.of_append.1 hsame) ▸ List.prefix_rfl
    · obtain ⟨other, hother, hinside, hsame⟩ := exists_of_mem_ancestors h.of_append.1 hmem
      exact (heq hother hsame) ▸ hinside
  · intro hinside
    induction address using List.reverseRecOn generalizing name with
    | nil =>
      rw [List.prefix_nil.1 hinside]
      exact List.mem_cons_self
    | append_singleton front last ih =>
      rcases List.prefix_concat_iff.1 hinside with rfl | hinside
      · exact List.mem_cons_self
      · rw [ancestors_pathOf h.of_append.1]
        exact List.mem_cons_of_mem _ (ih h.of_append.1 hinside)

end Above

/-! ## Where they lead -/

section Leading

variable {tree : FileTree} {here : Address} {components : List Component} {p : Path} {name : String}

theorem components_child (p : Path) (h : Path.IsFileName name) :
    (p.child name).components = p.components ++ [.name name] :=
  p.components_child h.flat (Path.innerComponent?_of_isFileName h)

/-- A child lies at its name in the place of its directory. -/
theorem place_child (home : Address) (p : Path) (h : Path.IsFileName name) :
    place home (p.child name) = place home p ++ [name] := by
  rw [place, components_child p h, List.foldl_append]
  rfl

theorem Returns.child (h : tree.Returns here p.components) (hname : Path.IsFileName name) :
    tree.Returns here (p.child name).components := by
  rw [components_child p hname]
  exact h.concat nofun

theorem absolute_child (hproper : Proper here) (h : tree.Returns here p.components) (hname : Path.IsFileName name) :
    Path.absolute (pathOf here) (p.child name) = (pathOf (place here p)).child name := by
  rw [absolute_eq_pathOf hproper (h.child hname), place_child here p hname,
    child_pathOf ((proper_place hproper p).append hname)]

/-- A walk from a directory that is there is one from the root. -/
theorem walk_solid (hsolid : tree.Solid here) {rest : List Step} (hrest : rest ≠ []) :
    tree.walk .use maxLinks [] false (here.map .name ++ rest) = tree.walk .use maxLinks here false rest :=
  walk_through .use maxLinks false hrest hsolid.short hsolid.directories

theorem walk_into (hsolid : tree.Solid (here ++ [name])) {rest : List Step} (hrest : rest ≠ []) :
    tree.walk .use maxLinks here false (.name name :: rest) = tree.walk .use maxLinks (here ++ [name]) false rest := by
  have hshort : ∀ other ∈ [name], other.utf8ByteSize ≤ maxName :=
    fun other hmem => hsolid.short other (List.mem_append_right _ hmem)
  refine walk_through .use maxLinks false hrest hshort fun front back heq hfront => ?_
  exact hsolid.directories (here ++ front) back (by rw [List.append_assoc, ← heq]) (by simp [hfront])

/-- A walk that ends with a name leads from the root to the place that its steps spell, if the directories that it
leaves again are there. -/
theorem walk_place (hroot : .root ∉ components) (h : tree.Returns here components) (hsolid : tree.Solid here)
    (name : String) :
    tree.walk .use maxLinks here false (components.filterMap Step.ofComponent? ++ [.name name]) =
      tree.walk .use maxLinks [] false ((components.foldl advance here).map .name ++ [.name name]) := by
  induction components generalizing here with
  | nil => exact (walk_solid hsolid (by simp)).symm
  | cons component rest ih =>
    rw [List.mem_cons, not_or] at hroot
    by_cases hup : .up ∈ component :: rest
    · have hinto := hsolid.advance h hroot.2 hup
      rw [List.foldl_cons, ← ih hroot.2 h.tail hinto]
      cases component with
      | root => exact absurd rfl hroot.1
      | here => rfl
      | up =>
        show tree.walk .use maxLinks here false (.up :: (rest.filterMap Step.ofComponent? ++ [.name name])) = _
        rw [walk]
        rfl
      | name text => exact walk_into hinto (by simp)
    · -- what is not left again need not be there
      have hsteps : (component :: rest).filterMap Step.ofComponent? =
          ((component :: rest).filterMap Component.name?).map .name := by
        rw [List.map_filterMap]
        refine List.filterMap_congr fun other hmem => ?_
        cases other with
        | up => exact absurd hmem hup
        | root | here | name text => rfl
      rw [foldl_advance (by simpa using hroot) hup, List.map_append, List.append_assoc, ← hsteps,
        walk_solid hsolid (by simp)]

/-- A name with a zero character stands in the place that components spell just if it stands among them. -/
theorem exists_nul_iff (hroot : .root ∉ components) (h : tree.Returns here components) (hsolid : tree.Solid here) :
    (∃ name ∈ components.foldl advance here, '\x00' ∈ name.toList) ↔
      ∃ name, .name name ∈ components ∧ '\x00' ∈ name.toList := by
  induction components generalizing here with
  | nil =>
    constructor
    · rintro ⟨name, hmem, hnul⟩
      exact absurd hnul (hsolid.nul name hmem)
    · rintro ⟨name, hmem, -⟩
      exact absurd hmem List.not_mem_nil
  | cons component rest ih =>
    rw [List.mem_cons, not_or] at hroot
    by_cases hup : .up ∈ component :: rest
    · have hinto := hsolid.advance h hroot.2 hup
      rw [List.foldl_cons, ih hroot.2 h.tail hinto]
      constructor
      · rintro ⟨name, hmem, hnul⟩
        exact ⟨name, List.mem_cons_of_mem _ hmem, hnul⟩
      · rintro ⟨name, hmem, hnul⟩
        rcases List.mem_cons.1 hmem with rfl | hmem
        · exact absurd hnul (hinto.nul name (by simp [advance]))
        · exact ⟨name, hmem, hnul⟩
    · rw [foldl_advance (by simpa using hroot) hup]
      constructor
      · rintro ⟨name, hmem, hnul⟩
        rcases List.mem_append.1 hmem with hhere | hmem
        · exact absurd hnul (hsolid.nul name hhere)
        · exact ⟨name, (Component.mem_filterMap_name?).1 hmem, hnul⟩
      · rintro ⟨name, hmem, hnul⟩
        exact ⟨name, List.mem_append_right _ ((Component.mem_filterMap_name?).2 hmem), hnul⟩

/-- The steps to a child are those to its directory and its name. -/
theorem walk_child (tree : FileTree) (home : Address) (directory : Path) (hname : Path.IsFileName name) :
    tree.walk .use maxLinks (if (directory.child name).isAbsolute then [] else home)
        (endsInSlash (directory.child name)) (Step.ofPath (directory.child name)) =
      tree.walk .use maxLinks (if directory.isAbsolute then [] else home) false
        (directory.components.filterMap Step.ofComponent? ++ [.name name]) := by
  have htight := Path.isTight_child directory hname
  have habsolute : (directory.child name).isAbsolute = directory.isAbsolute := by
    rw [Path.child, Path.isAbsolute_join, (Path.segments_of_isFlat hname.flat).1, Bool.or_false]
  rw [habsolute, htight.endsInSlash, walk_filter tree .use maxLinks _ false htight.getLast?_ofPath,
    Step.filter_ofPath, components_child directory hname, List.filterMap_append]
  rfl

theorem nul_mem_child_iff (directory : Path) (hname : Path.IsFileName name) :
    '\x00' ∈ (directory.child name).text.toList ↔
      (∃ text, .name text ∈ directory.components ∧ '\x00' ∈ text.toList) ∨ '\x00' ∈ name.toList := by
  rw [Path.mem_text_iff (by decide) (by decide), components_child directory hname]
  simp [or_and_right, exists_or]

/-- A file of a directory is the file of its absolute form. -/
theorem find_child (hstanding : tree.Standing) {directory : Path} (h : tree.Returns tree.home directory.components)
    (hname : Path.IsFileName name) (hshort : (directory.child name).text.utf8ByteSize ≤ maxPath)
    (hplace : ((pathOf (place tree.home directory)).child name).text.utf8ByteSize ≤ maxPath) :
    tree.find (directory.child name) = tree.find ((pathOf (place tree.home directory)).child name) := by
  have hproper := proper_place hstanding.proper directory
  have hsolid : tree.Solid (if directory.isAbsolute then [] else tree.home) := by
    split
    · exact hstanding.solid.outer List.nil_prefix
    · exact hstanding.solid
  have hnul : (directory.child name).text.toList.contains '\x00' =
      ((pathOf (place tree.home directory)).child name).text.toList.contains '\x00' := by
    have hsame := exists_nul_iff (root_not_mem_inner directory) h.inner hsolid
    simp only [Path.name_mem_inner_iff, ← place_eq] at hsame
    rw [Bool.eq_iff_iff, List.contains_iff_mem, List.contains_iff_mem, nul_mem_child_iff _ hname,
      nul_mem_child_iff _ hname, ← hsame, components_pathOf hproper]
    simp
  have hwalk := walk_child tree tree.home directory hname
  rw [Step.filterMap_components, walk_place (root_not_mem_inner directory) h.inner hsolid, ← place_eq] at hwalk
  have hplaceWalk := walk_child tree tree.home (pathOf (place tree.home directory)) hname
  rw [isAbsolute_pathOf hproper, if_pos rfl, components_pathOf hproper, List.filterMap_cons,
    List.filterMap_map] at hplaceWalk
  have hsteps : (place tree.home directory).filterMap (Step.ofComponent? ∘ .name) =
      (place tree.home directory).map .name := congrFun List.filterMap_eq_map _
  unfold find locate
  rw [hnul, if_neg (Path.isTight_child _ hname).text_ne_empty, if_neg (Path.isTight_child _ hname).text_ne_empty,
    if_neg (Nat.not_lt.2 hshort), if_neg (Nat.not_lt.2 hplace), hwalk, hplaceWalk, ← hsteps]
  rfl

end Leading

end FileTree
end ModuleBundler

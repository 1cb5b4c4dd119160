import ModuleBundler.Proofs.Build.Scripts

/-!
# Builds over one cache

Builds by new sessions that share the directory of a persistent cache, one after
the other, with edits in between.  A record says nothing about the options of the
build that made it; {lit}`minify` is the only one of them that what a file is
compiled to depends on.  As long as all builds have the same value of it, and a file
that was edited shows a later time, every build does what it would do without the
cache: it reports the same, ends in the same state and writes the same.

Main results:

- Theorem {lit}`Project.loads_tools`: a cache that tells the truth does not show while assets are loaded.
- Theorem {lit}`Project.History.truthful`: after any history of builds the cache tells the truth.
- Theorem {lit}`Project.History.transparent`: the next build does what it would do without the cache.
-/

namespace ModuleBundler
namespace Build
namespace Project

open Cache (Persistent UnitCache)

/-! ## Worlds with and without the cache -/

/-- Whether two projects differ in their caches and in what was compiled only, and the second one has no
cache. -/
structure Alike (project plain : Project) : Prop where
  tree : project.tree = plain.tree
  lookup : project.lookup = plain.lookup
  watcher : project.watcher = plain.watcher
  channel : project.channel = plain.channel
  absent : plain.cache = .absent

/-- Whether a project works with a persistent cache that tells the truth about some trees. -/
def Serves (minify : Bool) (directory : Path) (trees : List FileTree) (project : Project) : Prop :=
  ∃ cache, project.cache = .persistent directory cache ∧ cache.Truthful minify trees

/-- What holds of two builds side by side. -/
def Beside (minify : Bool) (directory : Path) (trees : List FileTree) (project plain : Project) : Prop :=
  project.Alike plain ∧ project.Serves minify directory trees

/-- What holds of two builds side by side while they load the files of a tree. -/
def Loading (minify : Bool) (directory : Path) (tree : FileTree) (past : List FileTree)
    (project plain : Project) : Prop :=
  project.Beside minify directory (tree :: past) plain ∧ project.tree = tree

section Tools

variable {minify : Bool} {directory : Path} {tree : FileTree} {past : List FileTree} {settings : Settings}
  {project plain : Project}

/-- A unit that is recalled is what compiling the file gives. -/
theorem compileFile_of_retrieve (htree : tree.Ordinary)
    (hpast : ∀ earlier ∈ past, earlier.Ordinary ∧ tree.Follows earlier)
    (h : project.Loading minify directory tree past plain) {p : Path} {unit : CompiledUnit}
    (hretrieve : (project.retrieve p).1 = some unit) :
    Source.compileFile p minify (tree.readText p) = .ok unit := by
  obtain ⟨⟨-, cache, hcache, htruthful⟩, hthere⟩ := h
  have htrees : ∀ earlier ∈ tree :: past, earlier.Ordinary ∧ tree.Follows earlier := by
    rw [List.forall_mem_cons]
    exact ⟨⟨htree, .refl tree⟩, hpast⟩
  unfold retrieve at hretrieve
  rw [hcache, hthere] at hretrieve
  cases hread : cache.read tree p with
  | error failure =>
    rw [UnitCache.read, hread] at hretrieve
    cases hretrieve
  | ok found =>
    rw [UnitCache.read, hread] at hretrieve
    cases hretrieve
    exact htruthful.read htree htrees hread

theorem remember_of_absent (h : project.cache = .absent) (p : Path) (unit : CompiledUnit)
    (inlined : List Path) : project.remember p unit inlined = project := by
  unfold remember
  rw [h, UnitCache.write]
  dsimp only
  rw [← h]

theorem Loading.remember (htree : tree.Ordinary) (h : project.Loading minify directory tree past plain)
    {p : Path} {unit : CompiledUnit} (hunit : Source.compileFile p minify (tree.readText p) = .ok unit)
    {inlined : List Path} (hcount : inlined.length ≤ unit.dependencies.length) :
    (project.remember p unit inlined).Loading minify directory tree past plain := by
  obtain ⟨⟨halike, cache, hcache, htruthful⟩, hthere⟩ := h
  unfold Project.remember
  rw [hcache, hthere, UnitCache.write]
  cases hwrite : cache.write tree p unit inlined with
  | error failure => exact ⟨⟨halike, cache, hcache, htruthful⟩, hthere⟩
  | ok kept =>
    have hkept := htruthful.write List.mem_cons_self htree hunit hcount hwrite
    have halike : ({ project with tree, cache := .persistent directory kept } : Project).Alike plain :=
      ⟨hthere ▸ halike.tree, halike.lookup, halike.watcher, halike.channel, halike.absent⟩
    exact ⟨⟨halike, kept, rfl, hkept⟩, rfl⟩

theorem Loading.resolve (h : project.Loading minify directory tree past plain) (modules : Lookup.Modules)
    (specifier : String) (importer : Option Path) :
    Agree (Loading minify directory tree past) (project.resolve modules specifier importer)
      (plain.resolve modules specifier importer) := by
  obtain ⟨⟨halike, hserves⟩, hthere⟩ := h
  unfold Project.resolve
  rw [halike.tree, halike.lookup]
  generalize (modules.resolve plain.tree specifier importer).run plain.lookup = answer
  obtain ⟨result, lookup⟩ := answer
  exact ⟨rfl, ⟨⟨rfl, rfl, halike.watcher, halike.channel, halike.absent⟩, hserves⟩, halike.tree ▸ hthere⟩

theorem Loading.watch (h : project.Loading minify directory tree past plain) (p : Path) :
    Agree (Loading minify directory tree past) (project.watch p) (plain.watch p) := by
  obtain ⟨⟨halike, hserves⟩, hthere⟩ := h
  unfold Project.watch
  rw [halike.watcher, halike.tree]
  cases plain.watcher with
  | none => exact ⟨rfl, ⟨halike, hserves⟩, hthere⟩
  | some watcher =>
    generalize watcher.add plain.tree p = answer
    obtain ⟨result, watcher⟩ := answer
    exact ⟨rfl, ⟨⟨rfl, halike.lookup, rfl, halike.channel, halike.absent⟩, hserves⟩,
      halike.tree ▸ hthere⟩

/-- Both builds compile a file to the same, or the first one recalls just that. -/
theorem Loading.compile (h : project.Loading minify directory tree past plain) (p : Path) :
    (plain.compile minify p).1 = Source.compileFile p minify (tree.readText p) ∧
      project.Loading minify directory tree past (plain.compile minify p).2 ∧
      Agree (Loading minify directory tree past) (project.compile minify p) (plain.compile minify p) := by
  obtain ⟨⟨halike, hserves⟩, hthere⟩ := h
  have htree : plain.tree = tree := halike.tree ▸ hthere
  have halike' : project.Alike (plain.compile minify p).2 :=
    ⟨halike.tree, halike.lookup, halike.watcher, halike.channel, halike.absent⟩
  refine ⟨?_, ⟨⟨halike', hserves⟩, hthere⟩, ?_, ?_⟩
  · rw [← htree]
    rfl
  · unfold Project.compile
    rw [halike.tree]
  · exact ⟨⟨⟨halike.tree, halike.lookup, halike.watcher, halike.channel, halike.absent⟩, hserves⟩, hthere⟩

/-- While assets are loaded, a cache that tells the truth does not show. -/
theorem loads_tools (hminify : settings.minify = minify) (htree : tree.Ordinary)
    (hpast : ∀ earlier ∈ past, earlier.Ordinary ∧ tree.Follows earlier) (root : Path) (watches : Bool) :
    (tools settings root watches).Loads (tools settings root watches)
      (Loading minify directory tree past)
      (fun p unit => Source.compileFile p minify (tree.readText p) = .ok unit) := by
  subst hminify
  refine ⟨fun _ => rfl, fun _ => rfl, fun h => h.resolve _, fun _ _ _ => rfl, fun _ _ _ => rfl, ?source,
    fun h => h.watch, fun h => retrieve_of_absent h.1.1.absent, ?recalled, ?compile, ?made, ?remember,
    ?plainRemember⟩
  case source =>
    intro project plain h p
    dsimp only [tools]
    rw [h.1.1.tree]
  case recalled =>
    intro project next plain p unit h hretrieve compiler package
    have hunit := compileFile_of_retrieve htree hpast h (congrArg Prod.fst hretrieve)
    have hnext : project = next := congrArg Prod.snd hretrieve
    obtain ⟨hcompiled, hloading, -⟩ := h.compile p
    exact ⟨hcompiled.trans hunit, hnext ▸ hloading⟩
  case compile =>
    intro project next plain p h hretrieve compiler package
    have hnext : project = next := congrArg Prod.snd hretrieve
    exact hnext ▸ (h.compile p).2.2
  case made =>
    intro project next plain p h hretrieve compiler package unit hunit
    have hnext : project = next := congrArg Prod.snd hretrieve
    obtain ⟨hcompiled, -, hsame, -⟩ := h.compile p
    subst hnext
    exact hcompiled.symm.trans (hsame.symm.trans hunit)
  case remember =>
    intro project plain p unit h hmade inlined hcount
    have hkept := h.remember htree hmade hcount
    rwa [← remember_of_absent h.1.1.absent p unit inlined] at hkept
  case plainRemember =>
    intro project plain h p unit inlined
    rwa [← remember_of_absent h.1.1.absent p unit inlined] at h

/-- Once everything is loaded, the cache is of no account. -/
theorem finishes_tools (settings : Settings) (root : Path) (watches : Bool) (trees : List FileTree) :
    (tools settings root watches).Finishes (tools settings root watches)
      (Beside minify directory trees) where
  writesOn := rfl
  watches := rfl
  write h packager bundle := by
    obtain ⟨halike, hserves⟩ := h
    dsimp only [tools, Project.write]
    rw [halike.tree]
    exact ⟨rfl, ⟨rfl, halike.lookup, halike.watcher, halike.channel, halike.absent⟩, hserves⟩
  unwatch h p := by
    obtain ⟨halike, hserves⟩ := h
    refine ⟨⟨halike.tree, halike.lookup, ?_, halike.channel, halike.absent⟩, hserves⟩
    dsimp only [tools, Project.unwatch]
    rw [halike.watcher, halike.tree]
  alert h failure := by
    obtain ⟨halike, hserves⟩ := h
    refine ⟨⟨halike.tree, halike.lookup, halike.watcher, ?_, halike.absent⟩, hserves⟩
    dsimp only [tools, Project.send]
    rw [halike.channel]
  close h := by
    obtain ⟨halike, hserves⟩ := h
    refine ⟨⟨halike.tree, halike.lookup, ?_, ?_, halike.absent⟩, hserves⟩
    · dsimp only [tools, Project.send]
      rw [halike.watcher]
    · dsimp only [tools, Project.send]
      rw [halike.channel]

end Tools

/-! ## Builds that go on with a cache -/

namespace Plan

/-- Whether a build goes on with a cache after builds that have loaded from the trees {lit}`past`: it opens
the cache, has the same {lit}`minify`, and what was edited since then shows a later time. -/
structure Continues (minify : Bool) (directory : Path) (past : List FileTree) (plan : Plan)
    (tree : FileTree) : Prop where
  caches : plan.settings.cache = true
  cacheDir : plan.settings.cacheDir = directory
  options : plan.settings.minify = minify
  opens : ∃ cache, (Cache.Store.load tree directory).2 = .ok cache
  ordinary : (plan.loaded tree).Ordinary
  follows : ∀ earlier ∈ past, (plan.loaded tree).Follows earlier

variable {minify : Bool} {directory : Path} {past : List FileTree} {plan : Plan} {tree : FileTree}

/-- A build with the cache does the same as without it, as long as the cache tells the truth. -/
theorem Continues.mirrors (h : plan.Continues minify directory past tree)
    (hpast : ∀ earlier ∈ past, earlier.Ordinary)
    (htruthful : ∀ cache, (Cache.Store.load tree directory).2 = .ok cache → cache.Truthful minify past) :
    (plan.session tree).bundle.1 = (plan.withoutCache.session (plan.opened tree)).bundle.1 ∧
      (plan.session tree).bundle.2.work.Mirrors
        (Beside minify directory (plan.loaded tree :: past))
        (plan.withoutCache.session (plan.opened tree)).bundle.2.work := by
  obtain ⟨cache, hload⟩ := h.opens
  have hopen := openCache_of_load h.caches (h.cacheDir ▸ hload)
  have hserved := (htruthful cache hload).mono (List.subset_cons_self (plan.loaded tree) past)
  have hpast : ∀ earlier ∈ past, earlier.Ordinary ∧ (plan.loaded tree).Follows earlier :=
    fun earlier hmem => ⟨hpast earlier hmem, h.follows earlier hmem⟩
  have hopened : plan.opened tree = (Cache.Store.load tree plan.settings.cacheDir).1 := by
    rw [opened, hopen]
  rw [← hopened, h.cacheDir] at hopen
  have hwork : (plan.session tree).work =
      ⟨{}, plan.project (plan.opened tree) (.persistent directory cache), []⟩ := by rw [session_eq hopen]
  have hplain : (plan.withoutCache.session (plan.opened tree)).work =
      ⟨{}, plan.project (plan.opened tree) .absent, []⟩ := by
    have hclosed : openCache plan.withoutCache.settings (plan.opened tree) =
        (plan.opened tree, .absent, []) := rfl
    rw [session_eq hclosed]
    rfl
  have hbeside : (plan.project (plan.opened tree) (.persistent directory cache)).Beside minify directory
      (plan.loaded tree :: past) (plan.project (plan.opened tree) .absent) :=
    ⟨⟨rfl, rfl, rfl, rfl, rfl⟩, cache, rfl, hserved⟩
  have hprepare : Agree (Loading minify directory (plan.loaded tree) past)
      ((plan.project (plan.opened tree) (.persistent directory cache)).prepare plan.settings.outDir)
      ((plan.project (plan.opened tree) .absent).prepare plan.settings.outDir) :=
    ⟨rfl, ⟨⟨rfl, rfl, rfl, rfl, rfl⟩, cache, rfl, hserved⟩, rfl⟩
  have htools : (plan.session tree).tools.Loads (plan.session tree).tools
      (Loading minify directory (plan.loaded tree) past)
      (fun p unit => Source.compileFile p minify ((plan.loaded tree).readText p) = .ok unit) :=
    loads_tools h.options h.ordinary hpast _ _
  have hfinish : (plan.session tree).tools.Finishes (plan.session tree).tools
      (Beside minify directory (plan.loaded tree :: past)) := finishes_tools _ _ _ _
  refine Session.bundle_mirrors htools hfinish ?_ (fun hloading => hloading.1) rfl rfl ?_ ?_ ?_
  · rw [hwork, hplain]
    exact hprepare
  · rw [hwork, hplain]
    rfl
  · rw [hwork]
  · rw [hwork, hplain]
    exact ⟨rfl, rfl, hbeside⟩

/-- Whether a build leaves its cache to the next one: the bundles are not written over it, and it is not too
large. -/
structure Leaves (directory : Path) (plan : Plan) (tree : FileTree) : Prop where
  spares : Cache.Store.Spares directory tree (plan.built tree).tree
  fits : ∀ cache, (plan.built tree).cache = .persistent directory cache →
    Cache.Record.IsWord (Cache.Store.encodeRecords cache).length

end Plan

/-! ## Builds of a script -/

section Scripts

variable {past : List FileTree} {tree : FileTree} {text : String}

theorem continues_script {time : Int} (h : tree.Holds text time) (htree : tree.Ordinary)
    {records : Persistent} (hload : Cache.Store.load tree ⟨"/cache"⟩ = (tree, .ok records))
    (hfollows : ∀ earlier ∈ past, tree.Follows earlier) (minify : Bool) :
    (scriptPlan true minify).Continues minify ⟨"/cache"⟩ past tree where
  caches := rfl
  cacheDir := rfl
  options := rfl
  opens := ⟨records, congrArg Prod.snd hload⟩
  ordinary := by rwa [loaded_script h]
  follows := by rwa [loaded_script h]

theorem Compiled.leaves {minify : Bool} {time : Nat}
    (h : Compiled minify tree text time ((scriptPlan true minify).built tree))
    (hshort : text.toList.length ≤ Source.maxLength) :
    (scriptPlan true minify).Leaves ⟨"/cache"⟩ tree where
  spares cache hcache := by
    rw [h.holds.load_of_missing h.missing] at hcache
    cases hcache
    exact .inl rfl
  fits cache hcache := by
    rw [h.cache] at hcache
    cases hcache
    exact isWord_encodeRecords_script hshort time minify

/-- The build of the workplace with its empty cache. -/
theorem continues_workplace (minify : Bool) :
    (scriptPlan true minify).Continues minify ⟨"/cache"⟩ [] workplace :=
  continues_script holds_workplace ordinary_workplace (holds_workplace.load_of_missing rfl)
    (fun earlier hmem => by cases hmem) minify

theorem leaves_workplace (minify : Bool) : (scriptPlan true minify).Leaves ⟨"/cache"⟩ workplace :=
  (compiled_workplace minify).leaves (by decide)

end Scripts

/-! ## Histories of builds -/

/-- What can have happened to a tree since nothing was in the cache of the directory: edits that do not
touch the cache, and builds that use it.  The trees from which the builds have loaded are listed, the last
one first. -/
inductive History (minify : Bool) (directory : Path) : List FileTree → FileTree → Prop
  | start {tree : FileTree}
    (hempty : ∀ cache, (Cache.Store.load tree directory).2 = .ok cache → cache = {}) :
    History minify directory [] tree
  | edit {past : List FileTree} {before after : FileTree} (h : History minify directory past before)
    (hspares : Cache.Store.Spares directory before after) : History minify directory past after
  | build {past : List FileTree} {tree : FileTree} (h : History minify directory past tree) {plan : Plan}
    (hplan : plan.Continues minify directory past tree) (hleaves : plan.Leaves directory tree) :
    History minify directory (plan.loaded tree :: past) (plan.built tree).saved

namespace History

variable {minify : Bool} {directory : Path} {past : List FileTree} {tree : FileTree}

theorem start_of_load (hload : Cache.Store.load tree directory = (tree, .ok {})) :
    History minify directory [] tree := by
  refine .start fun cache hcache => ?_
  rw [hload] at hcache
  cases hcache
  rfl

theorem ordinary (h : History minify directory past tree) : ∀ earlier ∈ past, earlier.Ordinary := by
  induction h with
  | start hempty => exact fun earlier hmem => by cases hmem
  | edit h hspares ih => exact ih
  | build h hplan hleaves ih =>
    rw [List.forall_mem_cons]
    exact ⟨hplan.ordinary, ih⟩

/-- After any history of builds the cache tells the truth. -/
theorem truthful (h : History minify directory past tree) {cache : Persistent}
    (hload : (Cache.Store.load tree directory).2 = .ok cache) : cache.Truthful minify past := by
  induction h generalizing cache with
  | start hempty =>
    rw [hempty cache hload]
    exact Persistent.truthful_empty minify _
  | edit h hspares ih =>
    obtain rfl | hbefore := hspares cache hload
    · exact Persistent.truthful_empty minify _
    · exact ih hbefore
  | @build past tree h plan hplan hleaves ih =>
    obtain ⟨-, hmirrors⟩ := hplan.mirrors h.ordinary fun cache hload => ih hload
    obtain ⟨-, kept, hcache, hkept⟩ := hmirrors.world
    unfold saved at hload
    rw [show (plan.built tree).cache = .persistent directory kept from hcache] at hload
    obtain rfl | hloaded := Cache.Store.load_save (hleaves.fits kept hcache) hload
    · exact hkept
    · -- the cache could not be saved, so that the one from before is still there
      obtain rfl | hbefore := hleaves.spares cache hloaded
      · exact Persistent.truthful_empty minify _
      · exact (ih hbefore).mono (List.subset_cons_self _ _)

/-- After any history of builds over one cache, the next build does what it would do without the cache. -/
theorem transparent (h : History minify directory past tree) {plan : Plan}
    (hplan : plan.Continues minify directory past tree) :
    (plan.session tree).bundle.1 = (plan.withoutCache.session (plan.opened tree)).bundle.1 ∧
      (plan.session tree).bundle.2.work.state =
        (plan.withoutCache.session (plan.opened tree)).bundle.2.work.state ∧
      (plan.session tree).bundle.2.work.notices =
        (plan.withoutCache.session (plan.opened tree)).bundle.2.work.notices ∧
      (plan.built tree).tree = (plan.withoutCache.built (plan.opened tree)).tree := by
  obtain ⟨hresult, hmirrors⟩ := hplan.mirrors h.ordinary fun cache hload => h.truthful hload
  exact ⟨hresult, hmirrors.state, hmirrors.notices, hmirrors.world.1.tree⟩

theorem start_workplace : History minify ⟨"/cache"⟩ [] workplace :=
  start_of_load (holds_workplace.load_of_missing rfl)

/-- A build after another one and an edit. -/
theorem transparent_editedWorkplace :
    History true ⟨"/cache"⟩ [workplace] editedWorkplace ∧
      (scriptPlan true true).Continues true ⟨"/cache"⟩ [workplace] editedWorkplace ∧
      ((scriptPlan true true).built editedWorkplace).tree =
        ((scriptPlan true true).withoutCache.built ((scriptPlan true true).opened editedWorkplace)).tree := by
  have hbuilt := compiled_workplace true
  obtain ⟨hsettled, hclock⟩ := settled_saved_workplace true
  obtain ⟨after, hwrite, hholds, hkept⟩ := hbuilt.saved.writes_script "b\n"
  obtain rfl : editedWorkplace = after := congrArg Prod.fst hwrite
  have hsize := isWord_encodeRecords_workplace true
  have hbefore := hbuilt.saved.load_of_store hsize hbuilt.store
  have hafter := hholds.load_of_store hsize (hkept _ _ hbuilt.store)
  have hordinary : editedWorkplace.Ordinary :=
    (hsettled.writeBytes (show 3 ≤ 4 by decide) hclock (by decide) hwrite).ordinary (by decide)
  have hfollows : editedWorkplace.Follows workplace :=
    ((rewritten_saved_workplace true).write hwrite).follows settled_workplace (by decide)
  have hhistory : History true ⟨"/cache"⟩ [workplace] editedWorkplace := by
    have hbuild := start_workplace.build (continues_workplace true) (leaves_workplace true)
    rw [loaded_script holds_workplace] at hbuild
    refine hbuild.edit fun cache hcache => .inr ?_
    rw [hafter] at hcache
    rwa [hbefore]
  have hplan : (scriptPlan true true).Continues true ⟨"/cache"⟩ [workplace] editedWorkplace :=
    continues_script hholds hordinary hafter (List.forall_mem_singleton.2 hfollows) true
  exact ⟨hhistory, hplan, (History.transparent hhistory hplan).2.2.2⟩

/-- A build that does not minify writes what an earlier one has minified. -/
theorem exists_recalled_otherwise : ∃ (directory : Path) (tree : FileTree) (first second : Plan),
    History first.settings.minify directory [] tree ∧
      first.Continues first.settings.minify directory [] tree ∧ first.Leaves directory tree ∧
      second.Continues second.settings.minify directory [first.loaded tree] (first.built tree).saved ∧
      (second.built (first.built tree).saved).tree ≠
        (second.withoutCache.built (second.opened (first.built tree).saved)).tree := by
  have hbuilt := compiled_workplace true
  have hordinary := (settled_saved_workplace true).1.ordinary (by decide)
  have hsize := isWord_encodeRecords_workplace true
  have hfollows : ∀ earlier ∈ [(scriptPlan true true).loaded workplace],
      ((scriptPlan true true).built workplace).saved.Follows earlier := by
    rw [loaded_script holds_workplace, List.forall_mem_singleton]
    exact (rewritten_saved_workplace true).follows settled_workplace (by decide)
  have hopened : (scriptPlan true false).opened ((scriptPlan true true).built workplace).saved =
      ((scriptPlan true true).built workplace).saved :=
    Plan.opened_of_isDirectory hbuilt.saved.isDirectory_cacheDir hbuilt.saved.isDirectory_folder
  have hplan := continues_script hbuilt.saved hordinary (hbuilt.saved.load_of_store hsize hbuilt.store)
    hfollows false
  refine ⟨⟨"/cache"⟩, workplace, scriptPlan true true, scriptPlan true false, start_workplace,
    continues_workplace true, leaves_workplace true, hplan, ?_⟩
  obtain ⟨hcached, hplain⟩ := rebuilt_script hbuilt.saved hordinary isAlone_workplace true false hbuilt.store
  have hplain : ((scriptPlan true false).withoutCache.built
      ((scriptPlan true true).built workplace).saved).tree.readBytes ⟨"/dist/main.js"⟩ =
        .ok "a\n".toUTF8 := hplain
  intro heq
  rw [hopened] at heq
  rw [heq, hplain] at hcached
  have hbytes : "a\n".toUTF8 ≠ (Text.minifyString "a\n").toUTF8 := by decide
  exact hbytes (Except.ok.inj hcached)

end History

end Project
end Build
end ModuleBundler

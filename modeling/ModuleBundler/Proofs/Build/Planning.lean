import ModuleBundler.Proofs.Build.Single
import ModuleBundler.Proofs.FileTree.Writing

/-!
# Builds by new sessions

A build by a new session opens the cache that its settings ask for, makes the output
directory and runs a first pass.  Where all that a pass comes across is one script,
the unit of the script is recalled from the cache or compiled and kept there, and
written to its bundle; nothing else is touched.

Main results:

- Theorem {lit}`Plan.opened_of_isDirectory`: opening a cache whose directory is there changes nothing.
- Theorem {lit}`Plan.built_single`: a build of a single script writes its bundle and keeps its unit.
-/

namespace ModuleBundler
namespace Build
namespace Project

open Cache (Persistent UnitCache)

/-! ## Builds -/

/-- What a build is asked for. -/
structure Plan where
  settings : Settings
  entry : Path
  types : AssetTypes Unit
  watches : Bool

namespace Plan

/-- A new session for the build. -/
def session (plan : Plan) (tree : FileTree) : Session Unit Packager Project :=
  Project.session plan.settings plan.entry plan.types tree plan.watches

/-- The project at the beginning of the build. -/
def project (plan : Plan) (tree : FileTree) (cache : UnitCache) : Project where
  tree := tree
  cache := cache
  watcher := if plan.watches then some {} else none
  channel := if plan.watches && plan.settings.hmr then some {} else none

/-- The build without a cache. -/
def withoutCache (plan : Plan) : Plan :=
  { plan with settings := { plan.settings with cache := false } }

/-- The tree when the cache has been opened. -/
def opened (plan : Plan) (tree : FileTree) : FileTree :=
  (openCache plan.settings tree).1

/-- The tree from which the build loads: the output directory has been made. -/
def loaded (plan : Plan) (tree : FileTree) : FileTree :=
  ((plan.opened tree).makeDirectories plan.settings.outDir).1

/-- The project when the first pass is over. -/
def built (plan : Plan) (tree : FileTree) : Project :=
  (plan.session tree).bundle.2.work.world

variable {plan : Plan} {tree : FileTree}

theorem openCache_of_load {settings : Settings} {cache : Persistent} (hcaches : settings.cache = true)
    (hload : (Cache.Store.load tree settings.cacheDir).2 = .ok cache) :
    openCache settings tree =
      ((Cache.Store.load tree settings.cacheDir).1, .persistent settings.cacheDir cache, []) := by
  unfold openCache UnitCache.load
  rw [if_pos hcaches]
  generalize Cache.Store.load tree settings.cacheDir = loaded at hload ⊢
  obtain ⟨opened, result⟩ := loaded
  cases hload
  rfl

/-- Where the directory of the cache is there, opening the cache does not change the tree. -/
theorem opened_of_isDirectory (hdirectory : tree.isDirectory plan.settings.cacheDir = true)
    (hfolder : tree.isDirectory (Cache.Store.folder plan.settings.cacheDir) = true) :
    plan.opened tree = tree := by
  have hload : (Cache.Store.load tree plan.settings.cacheDir).1 = tree := by
    unfold Cache.Store.load
    rw [FileTree.makeDirectories_of_isDirectory hdirectory]
    dsimp only
    rw [FileTree.makeDirectories_of_isDirectory hfolder]
    dsimp only
    split <;> rfl
  unfold opened openCache UnitCache.load
  split
  · generalize Cache.Store.load tree plan.settings.cacheDir = loaded at hload ⊢
    obtain ⟨other, result⟩ := loaded
    cases result <;> exact hload
  · rfl

theorem session_eq {opened : FileTree} {cache : UnitCache}
    (h : openCache plan.settings tree = (opened, cache, [])) :
    plan.session tree = {
      setup := ⟨plan.entry, plan.settings.outDir, plan.types, .standard⟩
      tools := tools plan.settings (plan.entry.parent?.getD ⟨"/"⟩) plan.watches
      work := ⟨{}, plan.project opened cache, []⟩
      closesAfterPass := plan.settings.killWorkers } := by
  unfold session Project.session
  rw [h]
  rfl

end Plan

/-! ## A script and its cache -/

/-- How the unit of a file is obtained, and what becomes of the cache: the unit is recalled, or it is compiled
and kept. -/
inductive Obtains (minify : Bool) (tree : FileTree) (p : Path) (unit : CompiledUnit) :
    UnitCache → UnitCache → Prop
  | recalled {cache : UnitCache} (hread : cache.read tree p = .ok (some unit)) :
    Obtains minify tree p unit cache cache
  | compiled {cache kept : UnitCache} (hread : cache.read tree p = .ok none)
    (hunit : Source.compileFile p minify (tree.readText p) = .ok unit)
    (hkept : cache.write tree p unit [] = .ok kept) : Obtains minify tree p unit cache kept

section Single

variable {settings : Settings} {tree after : FileTree} {cache kept : UnitCache} {p : Path}
  {unit : CompiledUnit} {project : Project}

theorem retrieve_of_read {recalled : Option CompiledUnit} (htree : project.tree = tree)
    (hcache : project.cache = cache) (hread : cache.read tree p = .ok recalled) :
    project.retrieve p = (recalled, project) := by
  unfold retrieve
  rw [htree, hcache, hread]
  rfl

theorem Obtains.yields (h : Obtains settings.minify tree p unit cache kept) (htree : project.tree = tree)
    (hcache : project.cache = cache) (root : Path) (watches : Bool) (types : AssetTypes Unit) :
    ∃ isNew next, (tools settings root watches).Yields types p unit isNew project next ∧
      ∃ last, (if isNew then (tools settings root watches).remember p unit [] next else next) = last ∧
        last.tree = tree ∧ last.cache = kept := by
  cases h with
  | recalled hread =>
    refine ⟨false, project, fun work asset hworld hasset => ?_, project, rfl, htree, hcache⟩
    have hretrieve : (tools settings root watches).retrieve asset.identity work.world =
        (some unit, project) := by
      rw [hworld, hasset]
      exact retrieve_of_read htree hcache hread
    unfold Work.compile
    rw [hretrieve]
    rfl
  | compiled hread hunit hkept =>
    refine ⟨true, (project.compile settings.minify p).2, fun work asset hworld hasset => ?_, _, rfl, ?_, ?_⟩
    · have hretrieve : (tools settings root watches).retrieve asset.identity work.world =
          (none, project) := by
        rw [hworld, hasset]
        exact retrieve_of_read htree hcache hread
      have hcompile : (project.compile settings.minify p).1 = .ok unit := by
        rw [← htree] at hunit
        exact hunit
      unfold Work.compile
      rw [hretrieve, hasset]
      show (((project.compile settings.minify p).1.map fun unit => (unit, true)), _) = _
      rw [hcompile]
      rfl
    · dsimp only [tools, remember, compile]
      rw [htree, hcache, hkept]
      rfl
    · dsimp only [tools, remember, compile]
      rw [htree, hcache, hkept]
      rfl

/-- A build of a single script writes its bundle and keeps its unit. -/
theorem Plan.built_single {plan : Plan} {memory : Lookup.Modules.Memory}
    (hopen : openCache plan.settings tree = (tree, cache, []))
    (hkill : plan.settings.killWorkers = false) (hwatches : plan.watches = false)
    (houtDir : tree.isDirectory plan.settings.outDir = true)
    (hresolve : ((Lookup.Modules.ofRoot (plan.entry.parent?.getD ⟨"/"⟩)).resolve tree plan.entry.text
      none).run {} = (.ok ⟨p, {}⟩, memory))
    (hwarnings : memory.warnings = []) (hkind : plan.types.kindOf p = .js)
    (hobtains : Obtains plan.settings.minify tree p unit cache kept) (himports : unit.dependencies = [])
    (hwrite : tree.writeText (plan.settings.outDir.bundleOf p) ((unit.generated.ofKind .js).getD "") =
      (after, .ok ())) :
    (plan.built tree).tree = after ∧ (plan.built tree).cache = kept := by
  have hprepare : (plan.project tree cache).prepare plan.settings.outDir =
      (.ok (), plan.project tree cache) := by
    unfold prepare
    rw [show (plan.project tree cache).tree = tree from rfl, FileTree.makeDirectories_of_isDirectory houtDir]
    rfl
  obtain ⟨found, hfound, htree, hcache, hwatcher⟩ : ∃ found, (plan.project tree cache).resolve
      (.ofRoot (plan.entry.parent?.getD ⟨"/"⟩)) plan.entry.text none = (⟨.ok ⟨p, {}⟩, []⟩, found) ∧
        found.tree = tree ∧ found.cache = cache ∧ found.watcher = none := by
    unfold resolve
    rw [show (plan.project tree cache).tree = tree from rfl,
      show (plan.project tree cache).lookup = {} from rfl, hresolve]
    dsimp only
    rw [hwarnings]
    refine ⟨_, rfl, rfl, rfl, ?_⟩
    show (if plan.watches then _ else none) = none
    rw [hwatches]
    rfl
  have hwatch : found.watch p = (.ok (), found) := by
    unfold watch
    rw [hwatcher]
  have hpackager : Packagers.standard.packagerFor .js = .plain := by decide
  obtain ⟨isNew, next, hyields, last, hlast, hlastTree, hlastCache⟩ := hobtains.yields htree hcache
    (plan.entry.parent?.getD ⟨"/"⟩) plan.watches plan.types
  have hwritten : (tools plan.settings (plan.entry.parent?.getD ⟨"/"⟩) plan.watches).write .plain
      (.single plan.settings.outDir p unit) last = (.ok (), { last with tree := after }) := by
    dsimp only [tools]
    have hname : (PackagedBundle.single plan.settings.outDir p unit).name =
        plan.settings.outDir.bundleOf p := rfl
    unfold write
    rw [PackagedBundle.render_single, hlastTree, hname, hwrite]
    rfl
  rw [← hlast] at hwritten
  have hworld : (plan.session tree).bundle.2.work.world =
      { (if isNew then (tools plan.settings (plan.entry.parent?.getD ⟨"/"⟩) plan.watches).remember p unit []
          next else next) with tree := after } := by
    rw [Plan.session_eq hopen]
    exact And.right (Session.bundle_single (fun _ => rfl) (fun _ _ _ => rfl) rfl hkill hprepare hfound hkind
      hwatch hyields himports hpackager rfl hwritten)
  unfold Plan.built
  rw [hworld, hlast]
  exact ⟨rfl, hlastCache⟩

end Single

end Project
end Build
end ModuleBundler

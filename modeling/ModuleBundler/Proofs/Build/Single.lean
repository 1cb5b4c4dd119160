import ModuleBundler.Build.Project
import ModuleBundler.Proofs.Build.Mirroring
import ModuleBundler.Proofs.Bundle.Placement
import ModuleBundler.Proofs.Bundle.Sequence

/-!
# Builds of a single script

A script that imports nothing makes a build of one asset and one bundle.  What
such a build does can be told from what its tools answer to the few questions that
it asks: where the entry is, what it is compiled to, and whether its bundle can be
written.

Main results:

- Theorem {lit}`Pass.assemble_single`: the script is the only asset that is loaded.
- Theorem {lit}`Layout.ofGraph_single`: its bundle is the only one.
- Theorem {lit}`Session.bundle_single`: a build leaves the world as writing the bundle does.
-/

namespace ModuleBundler

/-! ## Scripts that import nothing -/

namespace Source

/-- Whether a rule recognizes nothing in a text. -/
def Rule.overlooks (rule : Rule) : Option Char → List Char → Bool
  | _, [] => true
  | before, c :: cs => (rule.find before (c :: cs)).isNone && rule.overlooks (some c) cs

theorem Piece.sites_cut_of_overlooks {rule : Rule} {before : Option Char} {cs : List Char}
    (h : rule.overlooks before cs = true) (place : Location) : sites place (cut rule before cs) = [] := by
  induction cs generalizing before place with
  | nil => rw [cut, sites]
  | cons c rest ih =>
    rw [Rule.overlooks, Bool.and_eq_true, Option.isNone_iff_eq_none] at h
    rw [cut]
    split
    · rename_i hfind
      rw [h.1] at hfind
      cases hfind
    · rw [sites]
      exact ih h.2 _

/-- Whether a script imports nothing. -/
def Script.isAlone (source : String) : Bool :=
  statement.overlooks none source.toList && (call "require".toList).overlooks none source.toList &&
    (call "import".toList).overlooks none source.toList

theorem Script.imports_of_isAlone {source : String} (h : isAlone source = true) : imports source = [] := by
  rw [isAlone, Bool.and_eq_true, Bool.and_eq_true] at h
  unfold imports sitesOf
  dsimp only
  rw [Piece.sites_cut_of_overlooks h.1.1, Piece.sites_cut_of_overlooks h.1.2,
    Piece.sites_cut_of_overlooks h.2]
  simp

/-- What a script that imports nothing is compiled to. -/
def singleUnit (minify : Bool) (source : String) : CompiledUnit :=
  let generated : Generated := .single Kind.js.tag (if minify then Text.minifyString source else source)
  ⟨generated, generated.fingerprint, []⟩

theorem ofKind_singleUnit (minify : Bool) (source : String) :
    (singleUnit minify source).generated.ofKind .js =
      some (if minify then Text.minifyString source else source) := rfl

/-- A script that imports nothing is compiled as it stands. -/
theorem compile_single {p : Path} {source : String} (hfamily : Family.ofExtension (extensionOf p) = .script)
    (h : Script.isAlone source = true) (minify : Bool) :
    compile p minify source = .ok (singleUnit minify source) := by
  have houtput : output p source = .ok source := by
    unfold output
    dsimp only
    rw [hfamily]
  have hkind : kindOf p = .js := by
    unfold kindOf
    rw [hfamily]
    rfl
  have hdependencies : dependencies p source = [] := by
    unfold dependencies
    dsimp only
    rw [hfamily]
    dsimp only
    rw [Script.imports_of_isAlone h]
    rfl
  unfold compile generatedFor
  rw [houtput, hdependencies, hkind]
  rfl

end Source

/-! ## Scripts in no package -/

namespace Lookup

namespace Nearest

/-- No file is found where none of the directories has one. -/
theorem inDirectories_of_absent {tree : FileTree} {name : String} {directories : List Path} {known : Known}
    (hknown : ∀ p answer, known.get? p = some answer → answer = false)
    (habsent : ∀ directory ∈ directories, tree.isFile (directory.child name) = false) :
    (inDirectories tree [name] directories known).1 = none := by
  induction directories generalizing known with
  | nil => rfl
  | cons directory outer ih =>
    rw [List.forall_mem_cons] at habsent
    rw [inDirectories]
    split
    · rfl
    · have hnext : ∃ next, inDirectory tree directory [name] known = (none, next) ∧
          ∀ p answer, next.get? p = some answer → answer = false := by
        unfold inDirectory isFile
        dsimp only
        cases hget : known.get? (directory.child name) with
        | some answer =>
          obtain rfl := hknown _ _ hget
          exact ⟨known, rfl, hknown⟩
        | none =>
          rw [habsent.1]
          refine ⟨known.put (directory.child name) false, rfl, fun p answer hanswer => ?_⟩
          by_cases hsame : (directory.child name == p) = true
          · rw [Path.Map.get?_put_self hsame] at hanswer
            cases hanswer
            rfl
          · rw [Path.Map.get?_put_of_ne (by simpa using hsame)] at hanswer
            exact hknown p answer hanswer
      obtain ⟨next, hnone, hnext⟩ := hnext
      rw [hnone]
      exact ih hnext habsent.2

end Nearest

namespace Modules

/-- A rooted specifier of a file that lies in no package is resolved to that file. -/
theorem resolve_rooted (modules : Modules) {tree : FileTree} {specifier : String} {rooted : List Char}
    {importer : Option Path} {p : Path} (hrooted : specifier.toList = '/' :: rooted)
    (hnormal : (⟨specifier⟩ : Path).normalize = p) (hfile : tree.isFile p = true)
    (hcanonical : tree.canonical p = .ok p)
    (habsent : ∀ directory ∈ p.ancestors, tree.isFile (directory.child manifestName) = false) :
    ∃ memory, (modules.resolve tree specifier importer).run {} = (.ok ⟨p, {}⟩, memory) ∧
      memory.warnings = [] := by
  have hrelative : isRelative specifier = false := by
    have hne : specifier ≠ "." := by
      rintro rfl
      cases hrooted
    unfold isRelative
    rw [hrooted, decide_eq_false hne]
    rfl
  have hasFile : modules.asFile tree p = some p := by
    unfold asFile
    rw [List.find?_cons_of_pos hfile]
  have hfound : modules.asFileOrDirectory tree ⟨specifier⟩ = pure (some p) := by
    delta asFileOrDirectory
    dsimp only
    rw [hnormal, hasFile]
  have hlocate (memory : Memory) : (modules.locate tree specifier importer).run memory =
      pure (some p, memory) := by
    unfold locate
    rw [hrelative, hrooted]
    dsimp only
    rw [if_neg Bool.false_ne_true, hfound]
    rfl
  have hfind : (Nearest.find tree p [manifestName] .empty).1 = none :=
    Nearest.inDirectories_of_absent (fun q answer h => by cases h) habsent
  have hpackage : (packageOf tree p).run {} =
      pure (({} : Package), { known := (Nearest.find tree p [manifestName] .empty).2 }) := by
    unfold packageOf
    simp only [StateT.run_bind, StateT.run_get, StateT.run_set, pure_bind]
    generalize Nearest.find tree p [manifestName] .empty = answer at hfind ⊢
    obtain ⟨manifest, known⟩ := answer
    cases hfind
    rfl
  refine ⟨{ known := (Nearest.find tree p [manifestName] .empty).2 }, ?_, rfl⟩
  unfold resolve
  simp only [StateT.run_bind, hlocate, pure_bind, hcanonical, hpackage]
  rfl

end Modules
end Lookup

/-! ## One asset, one bundle -/

/-- A script that was loaded and imports nothing. -/
def Asset.single (p : Path) (unit : CompiledUnit) : Asset where
  id := ⟨0⟩
  identity := p
  kind := .js
  package := {}
  compiled := some unit.generated
  hash := some unit.hash
  dirty := false

/-- The graph of a single script. -/
def AssetGraph.single (p : Path) (unit : CompiledUnit) : AssetGraph where
  slots := [some (.single p unit)]
  index := Path.Map.empty.put p ⟨0⟩

/-- The name of the bundle of a single script. -/
def Path.bundleOf (outDir p : Path) : Path :=
  outDir.child (p.stem?.getD "index" ++ "." ++ Kind.js.tag)

/-- The only bundle of a single script. -/
def BundleTree.single (name : Path) : BundleTree where
  bundles := [{ kind := .js, name, start := some ⟨0⟩, assets := [⟨0⟩] }]
  root := some ⟨0⟩

theorem BundleTree.walk_single (name : Path) : (single name).walk = [⟨0⟩] :=
  walk_lone rfl

/-- A single script is the only member of its bundle. -/
theorem Layout.ofGraph_single (outDir p : Path) (unit : CompiledUnit) :
    ofGraph ((AssetGraph.single p unit).updateAll Asset.withoutPlace) outDir ⟨0⟩ =
      ⟨(AssetGraph.single p unit).update ⟨0⟩ fun asset => { asset with bundles := [⟨0⟩], home := some ⟨0⟩ },
        .single (outDir.bundleOf p)⟩ := by
  have hname : (Asset.single p unit).withoutPlace.bundleName true =
      p.stem?.getD "index" ++ "." ++ Kind.js.tag := rfl
  have hsteps : Layout.steps (Layout.visit outDir) 1
      ([Layout.Visit.ofEntry ⟨0⟩], ⟨(AssetGraph.single p unit).updateAll Asset.withoutPlace, .empty⟩) =
      ([], ⟨(AssetGraph.single p unit).update ⟨0⟩ fun asset =>
        { asset with bundles := [⟨0⟩], home := some ⟨0⟩ }, .single (outDir.bundleOf p)⟩) := by
    unfold Path.bundleOf
    rw [← hname]
    rfl
  rw [ofGraph_of_steps (congrArg Prod.fst hsteps), hsteps]

/-- The bundle of a single script as it is written. -/
def PackagedBundle.single (outDir p : Path) (unit : CompiledUnit) : PackagedBundle where
  name := outDir.bundleOf p
  kind := .js
  assets := [⟨p, .js, (unit.generated.ofKind .js).getD "", unit.hash, []⟩]

theorem PackagedBundle.render_single (outDir p : Path) (unit : CompiledUnit) :
    Packager.plain.render (single outDir p unit) = (unit.generated.ofKind .js).getD "" := rfl

namespace Build

variable {κ σ : Type} {tools : Toolset κ Packager σ} {types : AssetTypes κ}
  {setup : Setup κ Packager} {p : Path} {unit : CompiledUnit} {isNew : Bool}

/-! ## Loading -/

/-- A file that imports nothing is ready at once. -/
theorem Work.prepare_single (hcalm : ∀ world, tools.arrivals world = ([], world))
    (himplied : ∀ p kind world, tools.implied p kind world = (.ok [], world)) {work : Work σ}
    {asset : Asset} {world : σ}
    (hcompile : work.compile tools types asset = (.ok (unit, isNew), { work with world }))
    (himports : unit.dependencies = []) (id : AssetId) :
    work.prepare tools types id asset =
      (.ready [], { work with
        state := work.state.keep id unit
        world := if isNew then tools.remember asset.identity unit [] world else world }) := by
  unfold prepare
  rw [hcompile]
  dsimp only
  rw [dependencies_of_implied hcalm himplied, himports]
  dsimp only [findAll, findEach, recordAll]
  unfold remember
  simp only [listen_of_calm hcalm]
  cases isNew <;> rfl

/-- The state in which a single script is about to be loaded. -/
def State.entering (p : Path) : State where
  graph := AssetGraph.empty.add p .js {}
  start := some ⟨0⟩

/-- The state in which a single script has been loaded. -/
def State.single (p : Path) (unit : CompiledUnit) : State where
  graph := .single p unit
  start := some ⟨0⟩

/-- How a script is compiled or recalled in a world. -/
def Toolset.Yields (tools : Toolset κ Packager σ) (types : AssetTypes κ) (p : Path) (unit : CompiledUnit)
    (isNew : Bool) (world next : σ) : Prop :=
  ∀ (work : Work σ) (asset : Asset), work.world = world → asset.identity = p →
    work.compile tools types asset = (.ok (unit, isNew), { work with world := next })

section Loading

variable {world next : σ} (hcalm : ∀ world, tools.arrivals world = ([], world))
  (himplied : ∀ p kind world, tools.implied p kind world = (.ok [], world))
  (hyields : tools.Yields types p unit isNew world next) (himports : unit.dependencies = [])

include hcalm himplied hyields himports

theorem Load.load_single (depth : Nat) (notices : List Notice) :
    load tools types (depth + 1) ⟨0⟩ ⟨.entering p, world, notices⟩ =
      some (.loaded, ⟨.single p unit, if isNew then tools.remember p unit [] next else next,
        notices ++ [.building p.basename]⟩) := by
  have hclaim : claim (⟨.entering p, world, notices⟩ : Work σ) ⟨0⟩ =
      some ({ id := ⟨0⟩, identity := p, kind := .js, package := {} },
        ⟨{ State.entering p with
            graph := (State.entering p).graph.update ⟨0⟩ fun a => { a with dirty := false } },
          world, notices ++ [.building p.basename]⟩) := rfl
  unfold load
  rw [hclaim]
  dsimp only
  rw [Work.prepare_single hcalm himplied (hyields _ _ rfl rfl) himports]
  rfl

theorem Pass.gather_single (depth : Nat) (notices : List Notice) :
    gather tools types true (depth + 2) ⟨(State.entering p).enqueue ⟨0⟩, world, notices⟩ =
      some (.ok ⟨0⟩, ⟨.single p unit, if isNew then tools.remember p unit [] next else next,
        notices ++ [.building p.basename]⟩) := by
  have hload := Load.load_single hcalm himplied hyields himports (depth + 1) notices
  have hbatch : Load.batch tools types (depth + 2) [⟨0⟩] ⟨.entering p, world, notices⟩ =
      some (none, ⟨.single p unit, if isNew then tools.remember p unit [] next else next,
        notices ++ [.building p.basename]⟩) := by
    unfold Load.batch Load.each
    rw [hload]
    rfl
  have hdrain : ((State.entering p).enqueue ⟨0⟩).drain false = ([⟨0⟩], .entering p) := rfl
  unfold gather drain
  simp only [Bool.not_true, hdrain, List.isEmpty_cons, Bool.false_eq_true, if_false, if_true, hbatch]
  unfold drain
  rfl

end Loading

/-! ## Whole passes -/

section Passes

variable {before opened found next after : σ} (hcalm : ∀ world, tools.arrivals world = ([], world))

include hcalm

/-- A first pass finds a single script. -/
theorem Pass.enter_single (hprepare : tools.prepare setup.outDir before = (.ok (), opened))
    (hresolve : tools.resolve setup.entry.text none opened = (⟨.ok ⟨p, {}⟩, []⟩, found))
    (hkind : setup.types.kindOf p = .js) (hwatch : tools.watch p found = (.ok (), found))
    (notices : List Notice) :
    enter tools setup ⟨{}, before, notices⟩ =
      (.ok (), ⟨(State.entering p).enqueue ⟨0⟩, found,
        notices ++ [.opened setup.entry setup.outDir]⟩) := by
  have hinsert : AssetGraph.insert {} p .js {} = ((⟨0⟩, true), AssetGraph.empty.add p .js {}) := rfl
  unfold enter
  simp only [Work.tell, Work.listen_of_calm hcalm, hprepare, hresolve, Work.warn, List.map_nil,
    List.append_nil]
  unfold Work.enter
  rw [hkind]
  simp only [AssetGraph.empty, hinsert]
  unfold Work.watch
  simp only [hwatch]
  rfl

/-- A first pass loads a single script and nothing else. -/
theorem Pass.assemble_single (himplied : ∀ p kind world, tools.implied p kind world = (.ok [], world))
    (hprepare : tools.prepare setup.outDir before = (.ok (), opened))
    (hresolve : tools.resolve setup.entry.text none opened = (⟨.ok ⟨p, {}⟩, []⟩, found))
    (hkind : setup.types.kindOf p = .js) (hwatch : tools.watch p found = (.ok (), found))
    (hyields : tools.Yields setup.types p unit isNew found next) (himports : unit.dependencies = [])
    (depth : Nat) (notices : List Notice) :
    ∃ notices', assemble tools setup (depth + 2) ⟨{}, before, notices⟩ =
      some (.ok ⟨0⟩, ⟨.single p unit, if isNew then tools.remember p unit [] next else next, notices'⟩) := by
  have henter := enter_single hcalm hprepare hresolve hkind hwatch notices
  have hgather := gather_single hcalm himplied hyields himports depth
    (notices ++ [.opened setup.entry setup.outDir])
  unfold assemble
  simp only [Option.isNone_none, if_true, henter, hgather]
  exact ⟨_, rfl⟩

/-- The bundle of a single script is written. -/
theorem Pass.finish_single (hpackager : setup.packagers.packagerFor .js = .plain)
    (hwritesOn : tools.writesOn = true)
    (hwrite : tools.write .plain (.single setup.outDir p unit) next = (.ok (), after))
    (notices : List Notice) :
    ∃ report state, finish tools setup ⟨0⟩ ⟨.single p unit, next, notices⟩ =
      (.ok report, ⟨state, after, notices⟩) := by
  have hplan : (Packaging.plan (.single (setup.outDir.bundleOf p))
      ((AssetGraph.single p unit).update ⟨0⟩ fun asset =>
        { asset with bundles := [⟨0⟩], home := some ⟨0⟩ }) none).changed =
      [.single setup.outDir p unit] := by
    unfold Packaging.plan
    rw [BundleTree.walk_single]
    rfl
  have hkind : (PackagedBundle.single setup.outDir p unit).kind = .js := rfl
  unfold finish layOut State.single
  rw [Layout.ofGraph_single]
  dsimp only
  rw [hplan]
  unfold write
  rw [if_pos hwritesOn]
  unfold Packagers.runAll
  rw [hkind, hpackager, hwrite]
  dsimp only [Packagers.runAll]
  rw [Work.listen_of_calm hcalm]
  exact ⟨_, _, rfl⟩

end Passes

/-- The first build of a single script leaves the world as writing the bundle does. -/
theorem Session.bundle_single {session : Session κ Packager σ} {before opened found next after : σ}
    (hcalm : ∀ world, session.tools.arrivals world = ([], world))
    (himplied : ∀ p kind world, session.tools.implied p kind world = (.ok [], world))
    (hwork : session.work = ⟨{}, before, []⟩) (hopen : session.closesAfterPass = false)
    (hprepare : session.tools.prepare session.setup.outDir before = (.ok (), opened))
    (hresolve : session.tools.resolve session.setup.entry.text none opened = (⟨.ok ⟨p, {}⟩, []⟩, found))
    (hkind : session.setup.types.kindOf p = .js) (hwatch : session.tools.watch p found = (.ok (), found))
    (hyields : session.tools.Yields session.setup.types p unit isNew found next)
    (himports : unit.dependencies = [])
    (hpackager : session.setup.packagers.packagerFor .js = .plain) (hwritesOn : session.tools.writesOn = true)
    (hwrite : session.tools.write .plain (.single session.setup.outDir p unit)
      (if isNew then session.tools.remember p unit [] next else next) = (.ok (), after)) :
    (∃ report, session.bundle.1 = .ok report) ∧ session.bundle.2.work.world = after := by
  obtain ⟨notices, hassemble⟩ := Pass.assemble_single hcalm himplied hprepare hresolve hkind hwatch hyields
    himports (session.tools.reach before) [.started]
  obtain ⟨report, state, hfinish⟩ := Pass.finish_single hcalm hpackager hwritesOn hwrite notices
  have hdepth : session.depth = session.tools.reach before + 2 := by
    unfold depth
    rw [hwork]
    rfl
  have hrun : Pass.run session.tools session.setup session.depth (session.work.tell .started) =
      some (.ok report, ⟨state, after, notices⟩) := by
    rw [hdepth, hwork]
    unfold Pass.run Work.tell
    simp only [List.nil_append, hassemble, hfinish]
  unfold bundle bundle? start
  dsimp only
  rw [hrun]
  simp only [hopen, Bool.false_and, Bool.false_eq_true, if_false, Option.getD_some]
  exact ⟨⟨report, rfl⟩, rfl⟩

end Build
end ModuleBundler

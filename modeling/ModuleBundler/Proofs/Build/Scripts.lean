import ModuleBundler.Proofs.Build.Planning
import ModuleBundler.Proofs.Cache.Storing
import ModuleBundler.Proofs.Cache.Truth

/-!
# Builds of a script

The builds of a tree with a script in its root directory, a directory for the bundle
of the script and one for a cache.  A build writes the bundle and then the cache, and
the tree stays one with a script.

Main results:

- Theorem {lit}`FileTree.Holds.writes`: a tree with a script stays one when files are written.
- Theorem {lit}`FileTree.Holds.built`: a build writes the bundle of the script and keeps its unit.
- Theorem {lit}`FileTree.Holds.obtains_stored`: a unit is recalled whichever way the build compiles.
-/

namespace ModuleBundler
namespace FileTree

/-! ## Trees with a script -/

/-- Whether a tree has a script in the root directory, a directory for its bundle and one for a cache, and no
manifest. -/
structure Holds (tree : FileTree) (text : String) (time : Int) : Prop where
  script : tree.at? ["main.js"] = some (.file text.toUTF8 time)
  manifest : tree.at? ["package.json"] = none
  outDir : ∃ time, tree.at? ["dist"] = some (.directory time)
  cacheDir : ∃ time, tree.at? ["cache"] = some (.directory time)
  folder : ∃ time, tree.at? ["cache", "units"] = some (.directory time)
  bundle : ∀ entry, tree.at? ["dist", "main.js"] = some entry → entry.isFile = true
  store : ∀ entry, tree.at? ["cache", "units", "db"] = some entry → entry.isFile = true

namespace Holds

variable {tree after : FileTree} {text newer : String} {time later : Int} {target : Address}
  {content : ByteArray}

/-- A tree with a script stays one when a file is written that is no manifest. -/
theorem writes (h : tree.Holds text time) (hwrites : Writes tree after target content)
    (hmanifest : ["package.json"] ≠ target)
    (hscript : after.at? ["main.js"] = some (.file newer.toUTF8 later)) : after.Holds newer later where
  script := hscript
  manifest := hwrites.none_of_ne h.manifest hmanifest
  outDir := h.outDir.elim fun _ hat => hwrites.directory hat
  cacheDir := h.cacheDir.elim fun _ hat => hwrites.directory hat
  folder := h.folder.elim fun _ hat => hwrites.directory hat
  bundle := hwrites.isFile h.bundle
  store := hwrites.isFile h.store

theorem find_script (h : tree.Holds text time) :
    tree.find ⟨"/main.js"⟩ = .ok (["main.js"], .file text.toUTF8 time) := by
  have hspells : Spells ⟨"/main.js"⟩ ([] ++ ["main.js"]) := by decide
  exact find_of_spells hspells (open_single tree _) h.script nofun

theorem readText_script (h : tree.Holds text time) : tree.readText ⟨"/main.js"⟩ = .ok text := by
  unfold readText readBytes
  rw [h.find_script]
  dsimp only [bind, Except.bind]
  rw [Utf8.fromUTF8?_toUTF8]

theorem changed?_script (h : tree.Holds text time) : tree.changed? ⟨"/main.js"⟩ = some time := by
  unfold FileTree.changed?
  rw [h.find_script]
  rfl

theorem isDirectory_outDir (h : tree.Holds text time) : tree.isDirectory ⟨"/dist"⟩ = true := by
  have hat : ∃ time, tree.at? ([] ++ ["dist"]) = some (.directory time) := h.outDir
  exact isDirectory_of_spells (by decide) (open_single tree _) hat

theorem isDirectory_cacheDir (h : tree.Holds text time) : tree.isDirectory ⟨"/cache"⟩ = true := by
  have hat : ∃ time, tree.at? ([] ++ ["cache"]) = some (.directory time) := h.cacheDir
  exact isDirectory_of_spells (by decide) (open_single tree _) hat

theorem open_folder (h : tree.Holds text time) : tree.Open (["cache"] ++ ["units"]) :=
  (open_single tree "cache").append h.cacheDir "units"

theorem open_store (h : tree.Holds text time) : tree.Open (["cache", "units"] ++ ["db"]) :=
  h.open_folder.append h.folder "db"

theorem isDirectory_folder (h : tree.Holds text time) :
    tree.isDirectory (Cache.Store.folder ⟨"/cache"⟩) = true := by
  have hat : ∃ time, tree.at? (["cache"] ++ ["units"]) = some (.directory time) := h.folder
  exact isDirectory_of_spells (by decide) h.open_folder hat

/-- The entry of a build leads to the script. -/
theorem resolve_script (h : tree.Holds text time) :
    ∃ memory, ((Lookup.Modules.ofRoot ⟨"/"⟩).resolve tree "/main.js" none).run {} =
      (.ok ⟨⟨"/main.js"⟩, {}⟩, memory) ∧ memory.warnings = [] := by
  have hfile : tree.isFile ⟨"/main.js"⟩ = true := by
    unfold FileTree.isFile
    rw [h.find_script]
    rfl
  have hcanonical : tree.canonical ⟨"/main.js"⟩ = .ok ⟨"/main.js"⟩ := by
    unfold canonical
    rw [h.find_script]
    exact congrArg Except.ok (show pathOf ["main.js"] = ⟨"/main.js"⟩ by decide)
  have habsent : tree.isFile ⟨"/package.json"⟩ = false := by
    have hnone : tree.at? ([] ++ ["package.json"]) = none := h.manifest
    unfold FileTree.isFile
    rw [find_of_spells_none (by decide) (open_single tree _) hnone]
  have hparents : (⟨"/main.js"⟩ : Path).ancestors = [⟨"/"⟩] := by decide
  have hmanifest : (⟨"/"⟩ : Path).child Lookup.Modules.manifestName = ⟨"/package.json"⟩ := by decide
  have hrooted : "/main.js".toList = '/' :: "main.js".toList := by decide
  refine Lookup.Modules.resolve_rooted _ hrooted (by decide) hfile hcanonical fun directory hmem => ?_
  rw [hparents] at hmem
  obtain rfl := List.mem_singleton.1 hmem
  rw [hmanifest]
  exact habsent

/-! ## Files that are written -/

/-- The bundle can be written. -/
theorem writes_bundle (h : tree.Holds text time) (content : ByteArray) :
    ∃ after, tree.writeBytes ⟨"/dist/main.js"⟩ content = (after, .ok ()) ∧
      Writes tree after ["dist", "main.js"] content ∧ after.Holds text time := by
  have hspells : Spells ⟨"/dist/main.js"⟩ (["dist"] ++ ["main.js"]) := by decide
  have hopen : tree.Open (["dist"] ++ ["main.js"]) := (open_single tree "dist").append h.outDir "main.js"
  obtain ⟨after, hwrite, hwrites⟩ := exists_writeBytes hspells hopen h.bundle content
  exact ⟨after, hwrite, hwrites, h.writes hwrites (by decide) (hwrites.file_of_ne h.script (by decide))⟩

/-- The cache can be saved. -/
theorem writes_store (h : tree.Holds text time) (content : ByteArray) :
    ∃ after, tree.writeBytes (Cache.Store.file ⟨"/cache"⟩) content = (after, .ok ()) ∧
      after.Holds text time ∧ after.at? ["cache", "units", "db"] = some (.file content tree.clock) := by
  have hspells : Spells (Cache.Store.file ⟨"/cache"⟩) (["cache", "units"] ++ ["db"]) := by decide
  obtain ⟨after, hwrite, hwrites⟩ := exists_writeBytes hspells h.open_store h.store content
  have hholds := h.writes hwrites (by decide) (hwrites.file_of_ne h.script (by decide))
  exact ⟨after, hwrite, hholds, hwrites.file⟩

/-- The script can be edited, which does not change the cache. -/
theorem writes_script (h : tree.Holds text time) (newer : String) :
    ∃ after, tree.writeBytes ⟨"/main.js"⟩ newer.toUTF8 = (after, .ok ()) ∧ after.Holds newer tree.clock ∧
      ∀ content time, tree.at? ["cache", "units", "db"] = some (.file content time) →
        after.at? ["cache", "units", "db"] = some (.file content time) := by
  have hspells : Spells ⟨"/main.js"⟩ ([] ++ ["main.js"]) := by decide
  have hfree : ∀ entry, tree.at? ([] ++ ["main.js"]) = some entry → entry.isFile = true := by
    intro entry hat
    rw [List.nil_append, h.script] at hat
    cases hat
    rfl
  obtain ⟨after, hwrite, hwrites⟩ := exists_writeBytes hspells (open_single tree _) hfree newer.toUTF8
  exact ⟨after, hwrite, h.writes hwrites (by decide) hwrites.file,
    fun content time hat => hwrites.file_of_ne hat (by decide)⟩

/-- The cache is loaded from its file. -/
theorem load_of_store (h : tree.Holds text time) {records : Cache.Persistent} {later : Int}
    (hsize : Cache.Record.IsWord (Cache.Store.encodeRecords records).length)
    (hat : tree.at? ["cache", "units", "db"] =
      some (.file ⟨(Cache.Store.encode records).toArray⟩ later)) :
    Cache.Store.load tree ⟨"/cache"⟩ = (tree, .ok records) := by
  have hspells : Spells (Cache.Store.file ⟨"/cache"⟩) (["cache", "units"] ++ ["db"]) := by decide
  refine Cache.Store.load_of_readBytes h.isDirectory_cacheDir h.isDirectory_folder hsize ?_
  unfold readBytes
  rw [find_of_spells hspells h.open_store hat nofun]

/-- Without a file of records the cache is empty. -/
theorem load_of_missing (h : tree.Holds text time) (hmissing : tree.at? ["cache", "units", "db"] = none) :
    Cache.Store.load tree ⟨"/cache"⟩ = (tree, .ok {}) := by
  have hspells : Spells (Cache.Store.file ⟨"/cache"⟩) (["cache", "units"] ++ ["db"]) := by decide
  refine Cache.Store.load_of_missing h.isDirectory_cacheDir h.isDirectory_folder ?_
  unfold readBytes
  rw [find_of_spells_none hspells h.open_store hmissing]

end Holds
end FileTree

/-! ## Builds -/

namespace Build
namespace Project

open Cache (Persistent UnitCache)
open Source (Script.isAlone singleUnit)

/-- A build of the script, with or without the cache. -/
def scriptPlan (caches minify : Bool) : Plan where
  settings :=
    { outDir := ⟨"/dist"⟩, publicUrl := "/dist", watch := false, cache := caches, cacheDir := ⟨"/cache"⟩
      killWorkers := false, minify, hmr := false, logLevel := 0, production := false }
  entry := ⟨"/main.js"⟩
  types := .ofFallback ()
  watches := false

/-- The cache in which the unit of the script is kept. -/
def scriptCache (time : Nat) (unit : CompiledUnit) : Persistent :=
  ⟨.single "/main.js" (Cache.Record.encode ⟨[(⟨"/main.js"⟩, time)], unit⟩)⟩

section Builds

variable {tree after : FileTree} {text output : String} {time : Nat} {caches minify : Bool}
  {cache kept : UnitCache} {records : Persistent} {unit : CompiledUnit}

/-- A build writes the bundle of the script and keeps its unit. -/
theorem built_script (h : tree.Holds text time)
    (hopen : openCache (scriptPlan caches minify).settings tree = (tree, cache, []))
    (hobtains : Obtains minify tree ⟨"/main.js"⟩ unit cache kept) (himports : unit.dependencies = [])
    (houtput : unit.generated.ofKind .js = some output) :
    ((scriptPlan caches minify).built tree).cache = kept ∧
      tree.writeBytes ⟨"/dist/main.js"⟩ output.toUTF8 =
        (((scriptPlan caches minify).built tree).tree, .ok ()) := by
  obtain ⟨memory, hresolve, hwarnings⟩ := h.resolve_script
  obtain ⟨after, hwrite, -⟩ := h.writes_bundle output.toUTF8
  have hbundle : (⟨"/dist"⟩ : Path).bundleOf ⟨"/main.js"⟩ = ⟨"/dist/main.js"⟩ := by decide
  have hparent : (⟨"/dist/main.js"⟩ : Path).parent? = some ⟨"/dist"⟩ := by decide
  have hroot : ((⟨"/main.js"⟩ : Path).parent?.getD ⟨"/"⟩) = ⟨"/"⟩ := by decide
  have hkind : (AssetTypes.ofFallback ()).kindOf ⟨"/main.js"⟩ = .js := by decide
  have htext : tree.writeText (Path.bundleOf ⟨"/dist"⟩ ⟨"/main.js"⟩) ((unit.generated.ofKind .js).getD "") =
      (after, .ok ()) := by
    rw [hbundle, houtput, FileTree.writeText, hparent]
    dsimp only
    rw [FileTree.makeDirectories_of_isDirectory h.isDirectory_outDir]
    exact hwrite
  rw [← hroot] at hresolve
  obtain ⟨htree, hcache⟩ := Plan.built_single hopen rfl rfl h.isDirectory_outDir hresolve hwarnings hkind
    hobtains himports htext
  exact ⟨hcache, by rw [htree]; exact hwrite⟩

/-! ## Units of the script -/

theorem changed?_script (h : tree.Holds text time) (htree : tree.Ordinary) :
    Persistent.changed? tree ⟨"/main.js"⟩ = some time := by
  have hlimit := htree.times _ _ h.changed?_script
  have htime : time < Persistent.timeLimit := Int.ofNat_lt.1 hlimit
  unfold Persistent.changed?
  rw [h.changed?_script]
  dsimp only
  rw [if_pos (Int.natCast_nonneg time), Int.toNat_natCast, Nat.mod_eq_of_lt htime]

theorem stamp_script (h : tree.Holds text time) (htree : tree.Ordinary) :
    Persistent.stamp tree [⟨"/main.js"⟩] = .ok [(⟨"/main.js"⟩, time)] := by
  unfold Persistent.stamp
  rw [changed?_script h htree]
  rfl

/-- The script is compiled as it stands. -/
theorem compileFile_script (h : tree.Holds text time) (halone : Script.isAlone text = true) :
    Source.compileFile ⟨"/main.js"⟩ minify (tree.readText ⟨"/main.js"⟩) = .ok (singleUnit minify text) := by
  rw [h.readText_script]
  exact Source.compile_single (by decide) halone minify

theorem obtains_absent (h : tree.Holds text time) (halone : Script.isAlone text = true) :
    Obtains minify tree ⟨"/main.js"⟩ (singleUnit minify text) .absent .absent :=
  .compiled rfl (compileFile_script h halone) rfl

/-- A build over an empty cache compiles the script and keeps its unit. -/
theorem obtains_empty (h : tree.Holds text time) (htree : tree.Ordinary)
    (halone : Script.isAlone text = true) :
    Obtains minify tree ⟨"/main.js"⟩ (singleUnit minify text) (.persistent ⟨"/cache"⟩ {})
      (.persistent ⟨"/cache"⟩ (scriptCache time (singleUnit minify text))) := by
  refine .compiled rfl (compileFile_script h halone) ?_
  unfold UnitCache.write Persistent.write
  rw [stamp_script h htree]
  rfl

/-- A unit is recalled as long as the script has not changed, whichever way the build compiles. -/
theorem obtains_stored (h : tree.Holds text time) (htree : tree.Ordinary)
    (halone : Script.isAlone text = true) (other : Bool) :
    Obtains minify tree ⟨"/main.js"⟩ (singleUnit other text)
      (.persistent ⟨"/cache"⟩ (scriptCache time (singleUnit other text)))
      (.persistent ⟨"/cache"⟩ (scriptCache time (singleUnit other text))) := by
  have hwritable : Cache.Record.IsWritable ⟨[(⟨"/main.js"⟩, time)], singleUnit other text⟩ :=
    Persistent.isWritable_of_compileFile htree (compileFile_script h halone) (Nat.zero_le _)
      (stamp_script h htree)
  have hget : (scriptCache time (singleUnit other text)).records.get? "/main.js" =
      some (Cache.Record.encode ⟨[(⟨"/main.js"⟩, time)], singleUnit other text⟩) := rfl
  have hcurrent : [((⟨"/main.js"⟩ : Path), time)].all (Persistent.isCurrent tree) = true := by
    rw [List.all_cons, List.all_nil, Bool.and_true, Persistent.isCurrent, changed?_script h htree]
    exact decide_eq_true (Nat.le_refl time)
  refine .recalled ?_
  unfold UnitCache.read Persistent.read
  dsimp only
  rw [hget]
  dsimp only
  rw [Cache.Record.decode_encode hwritable]
  dsimp only
  rw [if_pos hcurrent]

/-- The cache is not much larger than the script. -/
theorem length_encodeRecords_script (time : Nat) (minify : Bool) (text : String) :
    (Cache.Store.encodeRecords (scriptCache time (singleUnit minify text))).length ≤
      1000 + 4 * text.toList.length := by
  have hentries : (singleUnit minify text).generated.entries =
      [(Kind.js.tag, if minify then Text.minifyString text else text)] := rfl
  have houtput := Nat.le_trans (utf8ByteSize_le _)
    (Nat.mul_le_mul_left 4 (Source.length_minified_le minify text))
  have hhash : (singleUnit minify text).hash.utf8ByteSize ≤ 4 * 64 := by
    have hbytes := utf8ByteSize_le (singleUnit minify text).generated.fingerprint
    rwa [Source.length_fingerprint] at hbytes
  have hrecord : (Cache.Record.encode ⟨[(⟨"/main.js"⟩, time)], singleUnit minify text⟩).length ≤
      900 + 4 * text.toList.length := by
    have himports : (singleUnit minify text).dependencies = [] := rfl
    have hname : "/main.js".utf8ByteSize = 8 := by decide
    have htag : Kind.js.tag.utf8ByteSize = 2 := by decide
    unfold Cache.Record.encode Cache.Record.encodeUnit Cache.Record.encodeList
    rw [hentries, himports]
    simp only [List.length_append, List.flatMap_cons, List.flatMap_nil, Cache.Record.length_encodeNat,
      Cache.Record.length_encodeText, List.length_nil, hname, htag]
    omega
  have hname : "/main.js".utf8ByteSize = 8 := by decide
  rw [Cache.Store.encodeRecords_eq, Cache.Record.encodeList, scriptCache, Table.single,
    List.flatMap_singleton, List.length_append, Cache.Record.length_encodeNat,
    Cache.Store.length_encodeEntry, hname]
  dsimp only
  omega

/-- A script that is not too large takes a cache that is not too large. -/
theorem isWord_encodeRecords_script (hshort : text.toList.length ≤ Source.maxLength) (time : Nat)
    (minify : Bool) :
    Cache.Record.IsWord (Cache.Store.encodeRecords (scriptCache time (singleUnit minify text))).length := by
  have hlength := length_encodeRecords_script time minify text
  unfold Cache.Record.IsWord UInt64.size
  unfold Source.maxLength at hshort
  omega

/-! ## Trees after builds -/

theorem openCache_script (hload : Cache.Store.load tree ⟨"/cache"⟩ = (tree, .ok records)) :
    openCache (scriptPlan true minify).settings tree = (tree, .persistent ⟨"/cache"⟩ records, []) := by
  have hopen : openCache (scriptPlan true minify).settings tree =
      ((Cache.Store.load tree ⟨"/cache"⟩).1, .persistent ⟨"/cache"⟩ records, []) :=
    Plan.openCache_of_load rfl (congrArg Prod.snd hload)
  rwa [hload] at hopen

/-- A build loads from the tree as it finds it. -/
theorem loaded_script {time : Int} (h : tree.Holds text time) (caches minify : Bool) :
    (scriptPlan caches minify).loaded tree = tree := by
  have hopened : (scriptPlan caches minify).opened tree = tree :=
    Plan.opened_of_isDirectory h.isDirectory_cacheDir h.isDirectory_folder
  have hmade : tree.makeDirectories ⟨"/dist"⟩ = (tree, .ok ()) :=
    FileTree.makeDirectories_of_isDirectory h.isDirectory_outDir
  unfold Plan.loaded
  rw [hopened]
  exact congrArg Prod.fst hmade

/-- What a build with the cache leaves behind that had to compile the script. -/
structure Compiled (minify : Bool) (tree : FileTree) (text : String) (time : Nat) (project : Project) :
    Prop where
  cache : project.cache = .persistent ⟨"/cache"⟩ (scriptCache time (singleUnit minify text))
  bundle : tree.writeBytes ⟨"/dist/main.js"⟩ (if minify then Text.minifyString text else text).toUTF8 =
    (project.tree, .ok ())
  holds : project.tree.Holds text time
  missing : project.tree.at? ["cache", "units", "db"] = none
  saves : project.tree.writeBytes (Cache.Store.file ⟨"/cache"⟩)
    ⟨(Cache.Store.encode (scriptCache time (singleUnit minify text))).toArray⟩ = (project.saved, .ok ())
  saved : project.saved.Holds text time
  store : project.saved.at? ["cache", "units", "db"] = some (.file
    ⟨(Cache.Store.encode (scriptCache time (singleUnit minify text))).toArray⟩ project.tree.clock)

/-- After a build over an empty cache the unit of the script is in the cache. -/
theorem compiled_script (h : tree.Holds text time) (htree : tree.Ordinary)
    (halone : Script.isAlone text = true) (hmissing : tree.at? ["cache", "units", "db"] = none)
    (minify : Bool) : Compiled minify tree text time ((scriptPlan true minify).built tree) := by
  obtain ⟨hcache, hwrite⟩ := built_script h (openCache_script (h.load_of_missing hmissing))
    (obtains_empty h htree halone) rfl (Source.ofKind_singleUnit minify text)
  generalize (scriptPlan true minify).built tree = project at hcache hwrite
  obtain ⟨after, hafter, hwrites, hholds⟩ :=
    h.writes_bundle (if minify then Text.minifyString text else text).toUTF8
  obtain rfl : project.tree = after := congrArg Prod.fst (hwrite.symm.trans hafter)
  obtain ⟨saved, hsave, hsaved, hstore⟩ := hholds.writes_store
    ⟨(Cache.Store.encode (scriptCache time (singleUnit minify text))).toArray⟩
  have hproject : project.saved = saved := by
    unfold Project.saved UnitCache.save Cache.Store.save
    rw [hcache]
    dsimp only
    rw [if_pos hholds.isDirectory_folder, hsave]
  subst hproject
  exact ⟨hcache, hwrite, hholds, hwrites.none_of_ne hmissing (by decide), hsave, hsaved, hstore⟩

/-- A tree is not much later for a build, and its files are not much larger. -/
theorem Compiled.settled {project : Project} (h : Compiled minify tree text time project) {limit : Int}
    (hsettled : tree.Settled limit) (hclock : limit < tree.clock)
    (hshort : 2000 + 4 * text.toList.length ≤ Source.maxLength) :
    project.saved.Settled (tree.clock + 1) ∧ project.saved.clock ≤ tree.clock + 2 := by
  obtain ⟨-, hbundle⟩ := FileTree.clock_writeBytes h.bundle
  obtain ⟨-, hsaved⟩ := FileTree.clock_writeBytes h.saves
  have houtput : (if minify then Text.minifyString text else text).toUTF8.size ≤ Source.maxLength := by
    have hbytes := utf8ByteSize_le (if minify then Text.minifyString text else text)
    have hlength := Source.length_minified_le minify text
    show (if minify then Text.minifyString text else text).utf8ByteSize ≤ Source.maxLength
    omega
  have hstore : (Cache.Store.encode (scriptCache time (singleUnit minify text))).length ≤
      Source.maxLength := by
    have hlength := length_encodeRecords_script time minify text
    rw [Cache.Store.encode, List.length_append, Cache.Store.length_digest, Cache.Store.sealSize]
    omega
  have hbuilt : project.tree.Settled tree.clock :=
    hsettled.writeBytes (Int.le_of_lt hclock) (Int.le_refl _) houtput h.bundle
  refine ⟨hbuilt.writeBytes (by omega) hbundle ?_ h.saves, by omega⟩
  show (Cache.Store.encode (scriptCache time (singleUnit minify text))).toArray.size ≤ Source.maxLength
  rwa [List.size_toArray]

/-- With the cache a later build writes what an earlier one has compiled the script to, whatever its own
options are. -/
theorem rebuilt_script (h : tree.Holds text time) (htree : tree.Ordinary)
    (halone : Script.isAlone text = true) (first second : Bool) {later : Int} (hstore : tree.at? ["cache", "units", "db"] = some (.file
      ⟨(Cache.Store.encode (scriptCache time (singleUnit first text))).toArray⟩ later)) :
    ((scriptPlan true second).built tree).tree.readBytes ⟨"/dist/main.js"⟩ =
        .ok (if first then Text.minifyString text else text).toUTF8 ∧
      ((scriptPlan false second).built tree).tree.readBytes ⟨"/dist/main.js"⟩ =
        .ok (if second then Text.minifyString text else text).toUTF8 := by
  have hsize := isWord_encodeRecords_script (htree.texts _ _ h.readText_script) time first
  obtain ⟨-, hcached⟩ := built_script h (openCache_script (h.load_of_store hsize hstore))
    (obtains_stored h htree halone first) rfl (Source.ofKind_singleUnit first text)
  have hclosed : openCache (scriptPlan false second).settings tree = (tree, .absent, []) := rfl
  obtain ⟨-, hplain⟩ := built_script h hclosed (obtains_absent h halone) rfl
    (Source.ofKind_singleUnit second text)
  exact ⟨FileTree.readBytes_writeBytes hcached, FileTree.readBytes_writeBytes hplain⟩

end Builds

/-! ## A workplace -/

/-- A tree with a script and an empty cache. -/
def workplace : FileTree where
  entries := [([], .directory 0), (["main.js"], .file "a\n".toUTF8 1), (["dist"], .directory 1),
    (["cache"], .directory 1), (["cache", "units"], .directory 1)]
  home := []
  clock := 2

theorem holds_workplace : workplace.Holds "a\n" (1 : Nat) where
  script := rfl
  manifest := rfl
  outDir := ⟨1, rfl⟩
  cacheDir := ⟨1, rfl⟩
  folder := ⟨1, rfl⟩
  bundle := nofun
  store := nofun

theorem settled_workplace : workplace.Settled 1 := by
  refine FileTree.settled_of_entries (by decide) (fun found hmem time htime => ?_)
    fun found hmem content time hfile => ?_
  · simp only [workplace, List.mem_cons, List.not_mem_nil, or_false] at hmem
    obtain rfl | rfl | rfl | rfl | rfl := hmem <;> cases htime <;> decide
  · simp only [workplace, List.mem_cons, List.not_mem_nil, or_false] at hmem
    obtain rfl | rfl | rfl | rfl | rfl := hmem <;> cases hfile
    decide

theorem isAlone_workplace : Script.isAlone "a\n" = true := by decide

theorem ordinary_workplace : workplace.Ordinary :=
  settled_workplace.ordinary (by decide)

theorem compiled_workplace (minify : Bool) :
    Compiled minify workplace "a\n" 1 ((scriptPlan true minify).built workplace) :=
  compiled_script holds_workplace ordinary_workplace isAlone_workplace rfl minify

theorem isWord_encodeRecords_workplace (minify : Bool) :
    Cache.Record.IsWord (Cache.Store.encodeRecords (scriptCache 1 (singleUnit minify "a\n"))).length :=
  isWord_encodeRecords_script (by decide) 1 minify

/-- The workplace after a build is still small, and what was written since then shows a later time. -/
theorem settled_saved_workplace (minify : Bool) :
    ((scriptPlan true minify).built workplace).saved.Settled 3 ∧
      ((scriptPlan true minify).built workplace).saved.clock ≤ 4 :=
  (compiled_workplace minify).settled settled_workplace (by decide) (by decide)

theorem rewritten_saved_workplace (minify : Bool) :
    workplace.Rewritten ((scriptPlan true minify).built workplace).saved :=
  .write (.write .refl (compiled_workplace minify).bundle) (compiled_workplace minify).saves

/-- The workplace after a build and an edit of the script. -/
def editedWorkplace : FileTree :=
  (((scriptPlan true true).built workplace).saved.writeBytes ⟨"/main.js"⟩ "b\n".toUTF8).1

end Project
end Build
end ModuleBundler

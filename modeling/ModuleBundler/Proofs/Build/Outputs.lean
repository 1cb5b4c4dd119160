import ModuleBundler.Build.Sketch
import ModuleBundler.Proofs.Build.Assembling
import ModuleBundler.Proofs.Build.Ending
import ModuleBundler.Proofs.Build.Incremental
import ModuleBundler.Proofs.Build.Rehearsal
import ModuleBundler.Proofs.Build.Stepping
import ModuleBundler.Proofs.Bundle.Skipping

/-!
# What is stored and what is reported

A pass does not write a bundle whose fingerprint is the one that the latest
successful pass has remembered for its name.  If packagers fail, some bundles may
have been written all the same, while nothing is remembered.  So what is stored is
what is reported, up to what failed passes have left behind: the file of a bundle
that a failed pass has written, and no successful one since, can be that of another
bundle.

Main results:

- Theorem {lit}`Toolset.Stores.writes`: what is stored after bundles were to be written.
- Theorem {lit}`Session.Trail.accounted`: what is remembered is stored, unless a failed pass has left
  something else.
- Theorem {lit}`Session.Trail.stored_iff`: after a successful pass the file of a bundle was written from a
  bundle with the reported fingerprint, unless a failed pass has left it behind.
-/

namespace ModuleBundler

/-! ## Fingerprints -/

/-- The fingerprint of a bundle as it is written. -/
def PackagedBundle.fingerprint (bundle : PackagedBundle) : String :=
  Blake3.hex (String.join (bundle.assets.map PackagedAsset.hash)).toUTF8

namespace Packaging

/-- The copy of a bundle has the fingerprint of the bundle. -/
theorem fingerprint_snapshot {tree : BundleTree} {graph : AssetGraph} {id : BundleId} {bundle : Bundle}
    (h : tree.get? id = some bundle) : (snapshot graph bundle).fingerprint = tree.fingerprint id graph := by
  unfold PackagedBundle.fingerprint BundleTree.fingerprint
  rw [fingerprintText_eq h]
  unfold snapshot members
  rw [List.map_map]
  rfl

/-- Bundles of different names: whatever has the name of a bundle is that bundle. -/
theorem eq_of_same_name {tree : BundleTree}
    (hnames : tree.walk.Pairwise fun x y => (tree.nameOf x == tree.nameOf y) = false) {x y : BundleId}
    {a b : Bundle} (hx : x ∈ tree.walk) (ha : tree.get? x = some a) (hy : y ∈ tree.walk)
    (hb : tree.get? y = some b) (hsame : (a.name == b.name) = true) : x = y := by
  by_cases hne : x = y
  · exact hne
  · have hsymm : Std.Symm fun x y => (tree.nameOf x == tree.nameOf y) = false := by
      refine ⟨fun x y hxy => ?_⟩
      cases hyx : tree.nameOf y == tree.nameOf x with
      | false => rfl
      | true => rwa [Path.beq_symm hyx] at hxy
    have hdifferent := hnames.forall hx hy hne
    rw [show tree.nameOf x = a.name by simp [BundleTree.nameOf, ha],
      show tree.nameOf y = b.name by simp [BundleTree.nameOf, hb], hsame] at hdifferent
    cases hdifferent

/-- A bundle that is planned as changed is the copy of the bundle of its name. -/
theorem eq_snapshot_of_mem_changed {tree : BundleTree} {graph : AssetGraph} {previous : Option Fingerprints}
    (hnames : tree.walk.Pairwise fun x y => (tree.nameOf x == tree.nameOf y) = false)
    {copy : PackagedBundle} (hcopy : copy ∈ (plan tree graph previous).changed) {id : BundleId}
    {bundle : Bundle} (hid : id ∈ tree.walk) (hbundle : tree.get? id = some bundle)
    (hsame : (copy.name == bundle.name) = true) : copy = snapshot graph bundle := by
  obtain ⟨other, hother, found, hfound, -, -, rfl⟩ := mem_changed_plan.1 hcopy
  have heq := eq_of_same_name hnames hother hfound hid hbundle hsame
  rw [heq, hbundle] at hfound
  rw [Option.some.inj hfound]

/-- What is planned for a name is the fingerprint of the bundle of that name. -/
theorem get?_hashes_plan {tree : BundleTree} {graph : AssetGraph} {previous : Option Fingerprints}
    (hnames : tree.walk.Pairwise fun x y => (tree.nameOf x == tree.nameOf y) = false)
    {id : BundleId} {bundle : Bundle} (hid : id ∈ tree.walk) (hbundle : tree.get? id = some bundle)
    (hassets : bundle.assets ≠ []) :
    (plan tree graph previous).hashes.get? bundle.name = some (tree.fingerprint id graph) := by
  have hhas := @has_hashes_of_mem tree graph previous bundle.name id hid
    ⟨bundle, hbundle, hassets, Path.beq_refl bundle.name⟩
  obtain ⟨hash, hhash⟩ := Option.isSome_iff_exists.1 hhas
  obtain ⟨other, hother, ⟨found, hfound, -, hsame⟩, rfl⟩ := exists_of_get?_hashes hhash
  rw [eq_of_same_name hnames hother hfound hid hbundle hsame] at hhash
  exact hhash

end Packaging

namespace Build

variable {κ π σ : Type}

/-! ## Stored bundles -/

/-- Whether files are stored as packagers write them: what a file was written from changes only when a
bundle of its name is written, and to that bundle; a packager that does not fail has written its bundle. -/
structure Toolset.Stores (tools : Toolset κ π σ) (stored : σ → Path → Option PackagedBundle) : Prop where
  write : ∀ packager bundle world q, stored (tools.write packager bundle world).2 q = stored world q ∨
    (bundle.name == q) = true ∧ stored (tools.write packager bundle world).2 q = some bundle
  written : ∀ packager bundle world q, (tools.write packager bundle world).1 = .ok () →
    (bundle.name == q) = true → stored (tools.write packager bundle world).2 q = some bundle
  asks : ∀ {world world' : σ}, tools.Asks world world' → stored world' = stored world
  watch : ∀ p world, stored (tools.watch p world).2 = stored world
  unwatch : ∀ p world, stored (tools.unwatch p world) = stored world
  close : ∀ world, stored (tools.close world) = stored world

/-- A world in which nobody but the build touches what it has stored. -/
def Outside.untouched (stored : σ → Path → Option PackagedBundle) : Outside σ where
  begins _ := True
  turns world world' := stored world' = stored world
  stops := True

namespace Toolset.Stores

variable {tools : Toolset κ π σ} {stored : σ → Path → Option PackagedBundle}

theorem asked (hstores : tools.Stores stored) {world world' : σ}
    (hasked : Relation.ReflTransGen tools.Asks world world') : stored world' = stored world := by
  induction hasked with
  | refl => rfl
  | tail _ hasks ih => exact (hstores.asks hasks).trans ih

/-- When bundles were to be written, a file is as it was, or it was written from one of them. -/
theorem writes (hstores : tools.Stores stored) {bundles : List PackagedBundle} {world world' : σ}
    (h : tools.Writes bundles world world') (q : Path) : stored world' q = stored world q ∨
      ∃ bundle ∈ bundles, (bundle.name == q) = true ∧ stored world' q = some bundle := by
  induction h with
  | nil => exact .inl rfl
  | cons packager bundle world _ ih =>
    rcases ih with hsame | ⟨other, hmem, hother⟩
    · rw [hsame]
      rcases hstores.write packager bundle world q with hkept | ⟨hname, hwritten⟩
      · exact .inl hkept
      · exact .inr ⟨bundle, List.mem_cons_self, hname, hwritten⟩
    · exact .inr ⟨other, List.mem_cons_of_mem _ hmem, hother⟩
  | stop packager bundle rest world _ =>
    rcases hstores.write packager bundle world q with hkept | ⟨hname, hwritten⟩
    · exact .inl hkept
    · exact .inr ⟨bundle, List.mem_cons_self, hname, hwritten⟩

/-- When bundles were written without failure, the file of each of them was written from one of them. -/
theorem writes_ok (hstores : tools.Stores stored) (packagers : Packagers π)
    (bundles : List PackagedBundle) (world : σ) {q : Path}
    (hname : ∃ bundle ∈ bundles, (bundle.name == q) = true) :
    ((packagers.runAll tools.write bundles world).1 = .ok () →
      ∃ bundle ∈ bundles, (bundle.name == q) = true ∧
        stored (packagers.runAll tools.write bundles world).2 q = some bundle) ∧
    ((packagers.runInTurn tools.write bundles world).1 = .ok () →
      ∃ bundle ∈ bundles, (bundle.name == q) = true ∧
        stored (packagers.runInTurn tools.write bundles world).2 q = some bundle) := by
  induction bundles generalizing world with
  | nil =>
    obtain ⟨bundle, hmem, -⟩ := hname
    cases hmem
  | cons bundle rest ih =>
    have hwritten := hstores.written (packagers.packagerFor bundle.kind) bundle world q
    unfold Packagers.runAll Packagers.runInTurn
    generalize tools.write (packagers.packagerFor bundle.kind) bundle world = result at hwritten
    obtain ⟨result, world'⟩ := result
    cases result with
    | error failure => exact ⟨fun h => (by cases h), fun h => (by cases h)⟩
    | ok done =>
      by_cases hrest : ∃ bundle ∈ rest, (bundle.name == q) = true
      · have hmore : ∀ {world : σ}, (∃ bundle ∈ rest, (bundle.name == q) = true ∧
            stored world q = some bundle) → ∃ other ∈ bundle :: rest, (other.name == q) = true ∧
              stored world q = some other := by
          rintro world ⟨other, hmem, hother⟩
          exact ⟨other, List.mem_cons_of_mem _ hmem, hother⟩
        obtain ⟨hall, hturn⟩ := ih world' hrest
        exact ⟨fun h => hmore (hall h), fun h => hmore (hturn h)⟩
      · -- nothing behind the bundle has its name, so that its file stays
        have hsame : (bundle.name == q) = true := by
          obtain ⟨other, hmem, hother⟩ := hname
          rcases List.mem_cons.1 hmem with rfl | hmem
          · exact hother
          · exact (hrest ⟨other, hmem, hother⟩).elim
        have hstays : ∀ {world'' : σ}, tools.Writes rest world' world'' → stored world'' q = some bundle := by
          intro world'' hwrites
          rcases hstores.writes hwrites q with hkept | ⟨other, hmem, hother, -⟩
          · exact hkept.trans (hwritten rfl hsame)
          · exact (hrest ⟨other, hmem, hother⟩).elim
        obtain ⟨hall, hturn⟩ := Pass.writes_run tools packagers rest world'
        exact ⟨fun _ => ⟨bundle, List.mem_cons_self, hsame, hstays hall⟩,
          fun _ => ⟨bundle, List.mem_cons_self, hsame, hstays hturn⟩⟩

end Toolset.Stores

/-! ## Leftovers -/

/-- What passes that have failed may have left behind. -/
structure Leftovers where
  /-- The bundles that were to be written the last time. -/
  tried : List PackagedBundle := []
  /-- The bundles that were to be written by a pass that has failed, without those whose files successful
  passes have written since. -/
  left : List PackagedBundle := []

namespace Leftovers

/-- What is left when something was done: bundles that are to be written are left until the pass succeeds. -/
def add (leftovers : Leftovers) : Deed → Leftovers
  | .written bundles => ⟨bundles, leftovers.left ++ bundles⟩
  | .finished =>
    { leftovers with
      left := leftovers.left.filter fun bundle =>
        leftovers.tried.all fun other => !(other.name == bundle.name) }
  | _ => leftovers

/-- What is left after a trail. -/
def after (leftovers : Leftovers) (trail : List (Moment σ)) : Leftovers :=
  trail.foldl (fun leftovers moment => leftovers.add moment.deed) leftovers

theorem after_append (leftovers : Leftovers) (trail more : List (Moment σ)) :
    leftovers.after (trail ++ more) = (leftovers.after trail).after more :=
  List.foldl_append

/-- Whether a deed has nothing to do with what is left. -/
def Apart : Deed → Prop
  | .written _ | .finished => False
  | _ => True

theorem after_apart {trail : List (Moment σ)} (h : ∀ moment ∈ trail, Apart moment.deed)
    (leftovers : Leftovers) : leftovers.after trail = leftovers := by
  induction trail generalizing leftovers with
  | nil => rfl
  | cons moment rest ih =>
    obtain ⟨hmoment, hrest⟩ := List.forall_mem_cons.1 h
    have hadd : leftovers.add moment.deed = leftovers := by
      cases hdeed : moment.deed <;> rw [hdeed] at hmoment <;> first | rfl | exact hmoment.elim
    show (leftovers.add moment.deed).after rest = leftovers
    rw [hadd, ih hrest]

theorem apart_of_assembles {deed : Deed} (h : deed.Assembles) : Apart deed := by
  cases deed <;> first | exact h.elim | trivial

theorem ambient_apart : Deed.Ambient Apart :=
  ⟨trivial, fun _ => trivial⟩

end Leftovers

/-! ## Steps -/

/-- Whether two works agree in what is stored and in what is remembered. -/
structure Work.SameOutput (stored : σ → Path → Option PackagedBundle) (work next : Work σ) : Prop where
  stored : stored next.world = stored work.world
  fingerprints : next.state.fingerprints = work.state.fingerprints

namespace Work.SameOutput

variable {tools : Toolset κ π σ} {stored : σ → Path → Option PackagedBundle} {work next last : Work σ}

theorem refl (work : Work σ) : work.SameOutput stored work :=
  ⟨rfl, rfl⟩

theorem trans (h : work.SameOutput stored next) (hnext : next.SameOutput stored last) :
    work.SameOutput stored last :=
  ⟨hnext.stored.trans h.stored, hnext.fingerprints.trans h.fingerprints⟩

theorem watch (hstores : tools.Stores stored) (work : Work σ) (p : Path) :
    work.SameOutput stored (work.watch tools p) := by
  refine ⟨?_, by rw [state_watch]⟩
  have hwatch := hstores.watch p work.world
  unfold Work.watch
  generalize tools.watch p work.world = result at hwatch
  obtain ⟨result, world⟩ := result
  cases result <;> exact hwatch

/-- The assets have nothing to do with what is stored. -/
theorem watchIn (hstores : tools.Stores stored) (work : Work σ) (graph : AssetGraph) (p : Path) :
    work.SameOutput stored
      (Work.watch tools { work with state := { work.state with graph } } p) := by
  have hwatch := watch hstores { work with state := { work.state with graph } } p
  exact ⟨hwatch.stored, hwatch.fingerprints⟩

theorem enter (hstores : tools.Stores stored) (types : AssetTypes κ) (work : Work σ)
    (module : Lookup.Modules.Resolved) :
    work.SameOutput stored (work.enter tools types module).2 := by
  unfold Work.enter
  split
  · exact ⟨rfl, rfl⟩
  · exact watchIn hstores work _ _

theorem inline (hstores : tools.Stores stored) (work : Work σ) (id : AssetId) (p : Path) :
    work.SameOutput stored (work.inline tools id p) := by
  unfold Work.inline
  split
  · exact refl work
  · exact watchIn hstores work _ _

theorem recordAll (hstores : tools.Stores stored) (types : AssetTypes κ) (id : AssetId)
    (modules : List (Dependency × Lookup.Modules.Resolved)) (work : Work σ) :
    work.SameOutput stored (Work.recordAll tools types id modules work).2 := by
  induction modules generalizing work with
  | nil => exact refl work
  | cons found rest ih =>
    have hrecord : work.SameOutput stored (work.record tools types id found).2 := by
      unfold Work.record
      split
      · exact inline hstores work id found.2.path
      · exact trans (enter hstores types work found.2) ⟨rfl, rfl⟩
    exact hrecord.trans (ih _)

end Work.SameOutput

/-- Only writing bundles and remembering their fingerprints changes the output of a build. -/
theorem Step.sameOutput {tools : Toolset κ π σ} {stored : σ → Path → Option PackagedBundle}
    (hstores : tools.Stores stored) {work : Work σ} {moment : Moment σ}
    (h : Step tools (.untouched stored) work moment) (hapart : Leftovers.Apart moment.deed) :
    work.SameOutput stored moment.work := by
  cases h with
  | begun hstate hworld => exact ⟨by rw [hworld], by rw [hstate]⟩
  | asked hstate hasked => exact ⟨hstores.asked hasked, by rw [hstate]⟩
  | noticed p =>
    refine ⟨?_, (work.notices_notify p).fingerprints⟩
    show stored (work.notify p).2.world = _
    rw [Work.world_notify]
  | taken invalidate => exact ⟨rfl, rfl⟩
  | claimed hclaim =>
    obtain ⟨hstate, hworld⟩ := Load.of_claim hclaim
    obtain ⟨-, -, hclaimed⟩ := State.of_claim hstate
    exact ⟨by rw [hworld], by rw [hclaimed]⟩
  | kept unit _ => exact ⟨rfl, rfl⟩
  | recorded types modules _ => exact .recordAll hstores types _ modules work
  | returned _ => exact ⟨rfl, rfl⟩
  | entered types module => exact (Work.SameOutput.enter hstores types work module).trans ⟨rfl, rfl⟩
  | sent assets => exact ⟨hstores.asks (.update assets work.world), rfl⟩
  | laidOut outDir start => exact ⟨rfl, rfl⟩
  | written _ => exact hapart.elim
  | finished hashes => exact hapart.elim
  | edited hturns => exact ⟨hturns, rfl⟩
  | closed _ => exact ⟨hstores.close work.world, rfl⟩

/-! ## Passes -/

/-- Whether what is remembered is stored, unless something that is left behind is. -/
def Work.Accounted (stored : σ → Path → Option PackagedBundle) (left : List PackagedBundle)
    (work : Work σ) : Prop :=
  ∀ hashes p hash, work.state.fingerprints = some hashes → hashes.get? p = some hash →
    ∃ bundle, stored work.world p = some bundle ∧
      (bundle.fingerprint = hash ∨ bundle ∈ left ∧ (bundle.name == p) = true)

theorem Work.Accounted.same {stored : σ → Path → Option PackagedBundle} {left : List PackagedBundle}
    {work next : Work σ} (h : work.Accounted stored left) (hsame : work.SameOutput stored next) :
    next.Accounted stored left := by
  intro hashes p hash hremembered hget
  rw [hsame.stored]
  exact h hashes p hash (hsame.fingerprints ▸ hremembered) hget

theorem State.fingerprints_unload (state : State) : state.unload.2.fingerprints = state.fingerprints :=
  unload_invariant (fun unloaded => unloaded.fingerprints = state.fingerprints) (fun _ h => h) rfl

/-- What is kept of a layout is enough for the fingerprints of its bundles. -/
theorem fingerprint_of_retains {layout : Layout} {graph : AssetGraph} (h : layout.Retains graph)
    (hsound : layout.Sound) {id : BundleId} {bundle : Bundle} (hbundle : layout.tree.get? id = some bundle) :
    layout.tree.fingerprint id graph = layout.tree.fingerprint id layout.graph := by
  have htexts : ∀ asset ∈ bundle.assets, ((graph.get? asset).bind Asset.hash).getD "" =
      ((layout.graph.get? asset).bind Asset.hash).getD "" := by
    intro asset hmem
    rw [h.kept (hsound.isPlaced_of_mem hbundle hmem)]
  unfold BundleTree.fingerprint BundleTree.fingerprintText
  rw [hbundle]
  dsimp only
  rw [List.map_congr_left htexts]

/-- Whether the bundles of every layout in a trail have different names. -/
def DistinctNames (trail : List (Moment σ)) : Prop :=
  ∀ moment ∈ trail, ∀ tree, moment.deed = .laidOut tree →
    tree.walk.Pairwise fun x y => (tree.nameOf x == tree.nameOf y) = false

namespace Pass

variable {tools : Toolset κ π σ} {stored : σ → Path → Option PackagedBundle}

/-- Nothing is written before all assets are assembled. -/
theorem sameOutput_assemble (hstores : tools.Stores stored) (setup : Setup κ π) {depth : Nat}
    {work next : Work σ} {result : Except Failure AssetId}
    (h : assemble tools setup depth work = some (result, next)) : work.SameOutput stored next := by
  have hlinked := linked_assemble tools (.untouched stored) setup h
  refine (hlinked.always (fun next => work.SameOutput stored next) Leftovers.Apart ?_ ?_ (.refl work)).2
  · exact fun hwork hstep hdeed => hwork.trans (hstep.sameOutput hstores hdeed)
  · exact fun moment hmem =>
      Leftovers.apart_of_assembles (assembles_assembleTrail tools setup depth work moment hmem)

/-- What is stored when bundles were written. -/
theorem stored_write (hstores : tools.Stores stored) (packagers : Packagers π)
    (bundles : List PackagedBundle) (work : Work σ) (q : Path) :
    (stored (write tools packagers bundles work).2.world q = stored work.world q ∨
      ∃ bundle ∈ bundles, (bundle.name == q) = true ∧
        stored (write tools packagers bundles work).2.world q = some bundle) ∧
    ((write tools packagers bundles work).1 = .ok () → (∃ bundle ∈ bundles, (bundle.name == q) = true) →
      ∃ bundle ∈ bundles, (bundle.name == q) = true ∧
        stored (write tools packagers bundles work).2.world q = some bundle) := by
  have hlisten : ∀ work : Work σ, stored (work.listen tools).world = stored work.world := by
    intro work
    show stored (Work.notifyAll _ _).world = _
    rw [Work.world_notifyAll]
    exact hstores.asks (.arrivals work.world)
  obtain ⟨hall, hturn⟩ := writes_run tools packagers bundles work.world
  unfold write
  cases tools.writesOn with
  | true =>
    dsimp only
    rw [if_pos rfl, hlisten]
    exact ⟨hstores.writes hall q, fun hok hname => (hstores.writes_ok packagers bundles work.world hname).1 hok⟩
  | false =>
    dsimp only
    rw [if_neg (by decide), hlisten]
    exact ⟨hstores.writes hturn q,
      fun hok hname => (hstores.writes_ok packagers bundles work.world hname).2 hok⟩

section

variable {setup : Setup κ π} {start : AssetId} {work : Work σ} {leftovers : Leftovers}

/-- When bundles were to be written, what is remembered is stored, or one of them is. -/
theorem written_accounted (hstores : tools.Stores stored) (h : work.Accounted stored leftovers.left) :
    (written tools setup start work).Accounted stored
      (leftovers.add (.written (planned setup.outDir start work).changed)).left := by
  have hfingerprints : (written tools setup start work).state.fingerprints = work.state.fingerprints :=
    (notices_written tools setup start work).fingerprints
  intro hashes p hash hremembered hget
  obtain ⟨bundle, hbundle, hkept⟩ := h hashes p hash (hfingerprints ▸ hremembered) hget
  rcases (stored_write hstores setup.packagers (planned setup.outDir start work).changed
    (layOut setup.outDir start work).2 p).1 with hsame | ⟨other, hmem, hname, hother⟩
  · refine ⟨bundle, hsame.trans hbundle, hkept.imp_right fun hleft => ?_⟩
    exact ⟨List.mem_append_left _ hleft.1, hleft.2⟩
  · exact ⟨other, hother, .inr ⟨List.mem_append_right _ hmem, hname⟩⟩

/-- After a successful pass, what is remembered is stored, unless something is that was left before and has
not been written. -/
theorem finished_accounted (hstores : tools.Stores stored)
    (hnames : (work.state.layout setup.outDir start).tree.walk.Pairwise fun x y =>
      ((work.state.layout setup.outDir start).tree.nameOf x ==
        (work.state.layout setup.outDir start).tree.nameOf y) = false)
    (h : work.Accounted stored leftovers.left)
    (hok : (write tools setup.packagers (planned setup.outDir start work).changed
      (layOut setup.outDir start work).2).1 = .ok ()) :
    (unload tools { written tools setup start work with
      state := { (written tools setup start work).state with
        fingerprints := some (planned setup.outDir start work).hashes } }).Accounted stored
      ((leftovers.add (.written (planned setup.outDir start work).changed)).add .finished).left := by
  intro hashes p hash hremembered hget
  rw [world_unload stored hstores.unwatch]
  rw [state_unload, State.fingerprints_unload] at hremembered
  obtain rfl := Option.some.inj hremembered
  have hstored := stored_write hstores setup.packagers (planned setup.outDir start work).changed
    (layOut setup.outDir start work).2 p
  obtain ⟨id, hid, ⟨bundle, hbundle, hassets, hname⟩, rfl⟩ := Packaging.exists_of_get?_hashes hget
  -- whatever is written under the path is the copy of the bundle
  have hunique : ∀ copy ∈ (planned setup.outDir start work).changed, (copy.name == p) = true →
      copy = Packaging.snapshot (work.state.layout setup.outDir start).graph bundle :=
    fun copy hcopy hsame => Packaging.eq_snapshot_of_mem_changed hnames hcopy hid hbundle
      (Path.beq_trans hsame (Path.beq_symm hname))
  by_cases hchanged : Packaging.snapshot (work.state.layout setup.outDir start).graph bundle ∈
      (planned setup.outDir start work).changed
  · obtain ⟨copy, hcopy, hsame, hwritten⟩ := hstored.2 hok ⟨_, hchanged, hname⟩
    refine ⟨copy, hwritten, .inl ?_⟩
    rw [hunique copy hcopy hsame, Packaging.fingerprint_snapshot hbundle]
    rfl
  · have hskipped := Packaging.isUnchanged_of_not_mem hid hbundle hassets hchanged
    obtain ⟨previous, hprevious, hget'⟩ := Option.bind_eq_some_iff.1 (eq_of_beq hskipped)
    rw [previous.get?_congr hname] at hget'
    obtain ⟨kept, hkept, hmatches⟩ := h previous p _ hprevious hget'
    have hother : ∀ copy ∈ (planned setup.outDir start work).changed, (copy.name == p) = false := by
      intro copy hcopy
      cases hsame : copy.name == p with
      | false => rfl
      | true => exact (hchanged (hunique copy hcopy hsame ▸ hcopy)).elim
    rcases hstored.1 with hsame | ⟨copy, hcopy, hsame, -⟩
    · refine ⟨kept, hsame.trans hkept, hmatches.imp_right fun ⟨hleft, hnamed⟩ => ⟨?_, hnamed⟩⟩
      refine List.mem_filter.2 ⟨List.mem_append_left _ hleft, List.all_eq_true.2 fun copy hcopy => ?_⟩
      cases hclash : copy.name == kept.name with
      | false => rfl
      | true =>
        have hnone := hother copy hcopy
        rw [Path.beq_trans hclash hnamed] at hnone
        cases hnone
    · rw [hother copy hcopy] at hsame
      cases hsame

/-- Only writing bundles, and doing so with success, changes what is left at the end of a pass. -/
theorem after_finishTrail (leftovers : Leftovers) :
    leftovers.after (finishTrail tools setup start work) =
      match (write tools setup.packagers (planned setup.outDir start work).changed
        (layOut setup.outDir start work).2).1 with
      | .error _ => leftovers.add (.written (planned setup.outDir start work).changed)
      | .ok _ => (leftovers.add (.written (planned setup.outDir start work).changed)).add .finished := by
  have hlisten : ∀ (leftovers : Leftovers) (work : Work σ),
      leftovers.after (work.listenTrail tools) = leftovers :=
    fun leftovers work =>
      Leftovers.after_apart (work.forall_listenTrail Leftovers.ambient_apart tools) leftovers
  show ((leftovers.add (.written (planned setup.outDir start work).changed)).after
    (Work.listenTrail tools _ ++ _)) = _
  rw [Leftovers.after_append, hlisten]
  unfold planned
  dsimp only
  cases write tools setup.packagers (Packaging.plan (layOut setup.outDir start work).1
    (layOut setup.outDir start work).2.state.graph
    (layOut setup.outDir start work).2.state.fingerprints).changed (layOut setup.outDir start work).2 with
  | mk result after => cases result <;> rfl

/-- The end of a pass keeps account of what is stored. -/
theorem finish_accounted (hstores : tools.Stores stored)
    (hnames : (work.state.layout setup.outDir start).tree.walk.Pairwise fun x y =>
      ((work.state.layout setup.outDir start).tree.nameOf x ==
        (work.state.layout setup.outDir start).tree.nameOf y) = false)
    (h : work.Accounted stored leftovers.left) :
    (finish tools setup start work).2.Accounted stored
      (leftovers.after (finishTrail tools setup start work)).left := by
  rw [after_finishTrail]
  rcases finish_cases tools setup start work with ⟨failure, heq, hfailed⟩ | ⟨last, heq, hok, hlast⟩
  · rw [heq, hfailed]
    exact written_accounted hstores h
  · rw [heq, hok, hlast]
    exact finished_accounted hstores hnames h hok

/-- A successful pass remembers the fingerprints that it reports. -/
theorem finish_remembers {next : Work σ} {report : Report} (hindexed : work.state.graph.Indexed)
    (hnames : (work.state.layout setup.outDir start).tree.walk.Pairwise fun x y =>
      ((work.state.layout setup.outDir start).tree.nameOf x ==
        (work.state.layout setup.outDir start).tree.nameOf y) = false)
    (h : finish tools setup start work = (.ok report, next)) {info : BundleInfo}
    (hinfo : info ∈ report.bundles) (hassets : info.assets ≠ []) :
    ∃ hashes, next.state.fingerprints = some hashes ∧ hashes.get? info.name = some info.hash := by
  have hretains := finish_retains hindexed h
  rcases finish_cases tools setup start work with ⟨failure, heq, -⟩ | ⟨last, heq, -, hlast⟩
  · rw [h] at heq
    cases (Prod.mk.inj heq).1
  obtain ⟨hreport, rfl⟩ := Prod.mk.inj (h.symm.trans heq)
  obtain rfl := Except.ok.inj hreport
  refine ⟨(planned setup.outDir start work).hashes, ?_, ?_⟩
  · rw [hlast, state_unload, State.fingerprints_unload]
  obtain ⟨id, hid, rfl⟩ := List.mem_map.1 hinfo
  cases hbundle : (work.state.layout setup.outDir start).tree.get? id with
  | none =>
    unfold Report.infoOf at hassets
    rw [hbundle] at hassets
    exact (hassets rfl).elim
  | some bundle =>
    have hmembers : bundle.assets ≠ [] := by
      rintro hnil
      unfold Report.infoOf at hassets
      rw [hbundle] at hassets
      dsimp only [Option.getD] at hassets
      rw [hnil] at hassets
      exact hassets rfl
    have hname : (Report.infoOf (work.state.layout setup.outDir start).tree next.state.graph id).name =
        bundle.name := by
      unfold Report.infoOf
      rw [hbundle]
      rfl
    rw [hname]
    refine (Packaging.get?_hashes_plan hnames hid hbundle hmembers).trans (congrArg some ?_)
    exact (fingerprint_of_retains hretains (Layout.ofGraph_sound _ _ _) hbundle).symm

end

/-- A pass that has assembled the assets lays them out. -/
theorem mem_runTrail_of_assemble {setup : Setup κ π} {depth : Nat} {work assembled : Work σ} {start : AssetId}
    (h : assemble tools setup depth work = some (.ok start, assembled)) :
    (⟨.laidOut (layOut setup.outDir start assembled).1, (layOut setup.outDir start assembled).2⟩ : Moment σ) ∈
      runTrail tools setup depth work := by
  unfold runTrail
  rw [h]
  exact List.mem_append_right _ List.mem_cons_self

/-- A pass keeps account of what is stored. -/
theorem run_accounted (hstores : tools.Stores stored) (setup : Setup κ π) {depth : Nat}
    {work next : Work σ} {result : Except Failure Report} {leftovers : Leftovers}
    (hnames : DistinctNames (runTrail tools setup depth work)) (h : work.Accounted stored leftovers.left)
    (hrun : run tools setup depth work = some (result, next)) :
    next.Accounted stored (leftovers.after (runTrail tools setup depth work)).left := by
  have hassembling : leftovers.after (assembleTrail tools setup depth work) = leftovers :=
    Leftovers.after_apart (fun moment hmem =>
      Leftovers.apart_of_assembles (assembles_assembleTrail tools setup depth work moment hmem)) leftovers
  unfold runTrail
  rw [Leftovers.after_append, hassembling]
  rcases run_cases hrun with ⟨failure, -, hassemble⟩ | ⟨start, assembled, hassemble, hend⟩
  · rw [hassemble]
    exact h.same (sameOutput_assemble hstores setup hassemble)
  · have hlaid := hnames _ (mem_runTrail_of_assemble hassemble) _ rfl
    have hfinish := finish_accounted hstores hlaid (h.same (sameOutput_assemble hstores setup hassemble))
    rw [hassemble]
    rwa [hend] at hfinish

end Pass

/-! ## Sessions -/

namespace Session

variable {stored : σ → Path → Option PackagedBundle}

/-- When a pass is over, its output stays as it is. -/
theorem sameOutput_bundle? {session session' : Session κ π σ} (hstores : session.tools.Stores stored)
    {depth : Nat} {result : Except Failure Report} (h : session.bundle? depth = some (result, session')) :
    ∃ next, Pass.run session.tools session.setup depth session.opening = some (result, next) ∧
      next.SameOutput stored session'.work := by
  have hconclude : ∀ (result : Except Failure Report) (work : Work σ),
      work.SameOutput stored (conclude session.tools result work) := by
    intro result work
    cases result with
    | ok report => exact ⟨rfl, rfl⟩
    | error failure => exact ⟨hstores.asks (.alert failure work.world), rfl⟩
  unfold bundle? at h
  dsimp only at h
  split at h
  · cases h
  · rename_i result' next hrun
    obtain ⟨rfl, rfl⟩ := Prod.mk.inj (Option.some.inj h)
    refine ⟨next, hrun, ?_⟩
    split
    · exact (hconclude _ _).trans ⟨hstores.close _, rfl⟩
    · exact hconclude _ _

/-- What a pass leaves is what its run leaves. -/
theorem after_passTrail (session : Session κ π σ) (depth : Nat) (leftovers : Leftovers) :
    leftovers.after (session.passTrail depth) =
      leftovers.after (Pass.runTrail session.tools session.setup depth session.opening) := by
  unfold passTrail
  show leftovers.after (Pass.runTrail session.tools session.setup depth session.opening ++ _) = _
  rw [Leftovers.after_append]
  refine Leftovers.after_apart ?_ _
  split
  · exact fun _ h => by cases h
  · dsimp only
    split
    · exact List.forall_mem_cons.2 ⟨trivial, List.forall_mem_singleton.2 trivial⟩
    · exact List.forall_mem_singleton.2 trivial

/-- A pass of a session keeps account of what is stored. -/
theorem pass_accounted {session session' : Session κ π σ} (hstores : session.tools.Stores stored)
    {depth : Nat} {result : Except Failure Report} {leftovers : Leftovers}
    (hnames : DistinctNames (session.passTrail depth))
    (h : session.work.Accounted stored leftovers.left)
    (hbundle : session.bundle? depth = some (result, session')) :
    session'.work.Accounted stored (leftovers.after (session.passTrail depth)).left := by
  obtain ⟨next, hrun, hsame⟩ := sameOutput_bundle? hstores hbundle
  have hopening : session.opening.Accounted stored leftovers.left := h
  rw [after_passTrail]
  refine (Pass.run_accounted hstores session.setup (fun moment hmem => ?_) hopening hrun).same hsame
  exact hnames moment (List.mem_cons_of_mem _ (List.mem_append_left _ hmem))

/-- What is remembered is stored, unless a failed pass has left something else. -/
theorem Trail.accounted {session : Session κ π σ} {trail : List (Moment σ)}
    (h : session.Trail (.untouched stored) trail) (hstores : session.tools.Stores stored)
    (hnames : DistinctNames trail) :
    session.work.Accounted stored (Leftovers.after {} trail).left := by
  induction h with
  | new settings entry types packagers tools _ =>
    intro hashes p hash hremembered
    cases hremembered
  | addType _ hadd ih =>
    obtain ⟨-, rfl⟩ := addType_cases hadd
    exact ih hstores hnames
  | addPackager _ hadd ih =>
    obtain ⟨-, rfl⟩ := addPackager_cases hadd
    exact ih hstores hnames
  | edit htrail hturns ih =>
    rw [Leftovers.after_append]
    refine (ih hstores fun moment hmem => hnames moment (List.mem_append_left _ hmem)).same ⟨?_, rfl⟩
    exact hturns
  | @change session trail p htrail ih =>
    rw [Leftovers.after_append]
    refine (ih hstores fun moment hmem => hnames moment (List.mem_append_left _ hmem)).same ⟨?_, ?_⟩
    · show stored (session.work.notify p).2.world = _
      rw [Work.world_notify]
    · exact (session.work.notices_notify p).fingerprints
  | pass htrail hbundle ih =>
    have htools := tools_of_bundle? hbundle
    rw [htools] at hstores
    rw [Leftovers.after_append]
    refine pass_accounted hstores (fun moment hmem => hnames moment (List.mem_append_right _ hmem)) ?_ hbundle
    exact ih hstores fun moment hmem => hnames moment (List.mem_append_left _ hmem)
  | stop htrail _ ih =>
    rw [Leftovers.after_append]
    refine (ih hstores fun moment hmem => hnames moment (List.mem_append_left _ hmem)).same ⟨?_, rfl⟩
    exact hstores.close _

/-- After a successful pass, the file of a bundle with members was written from a bundle with the reported
fingerprint, unless it was written from another bundle by a pass that has failed, and by no successful pass
since. -/
theorem Trail.stored_iff {session session' : Session κ π σ} {trail : List (Moment σ)}
    (h : session.Trail (.untouched stored) trail) (hstores : session.tools.Stores stored) {depth : Nat}
    (hnames : DistinctNames (trail ++ session.passTrail depth)) {report : Report}
    (hbundle : session.bundle? depth = some (.ok report, session')) {info : BundleInfo}
    (hinfo : info ∈ report.bundles) (hassets : info.assets ≠ []) :
    (∃ bundle, stored session'.work.world info.name = some bundle ∧ bundle.fingerprint = info.hash) ↔
      ¬ ∃ bundle ∈ (Leftovers.after {} (trail ++ session.passTrail depth)).left,
        (bundle.name == info.name) = true ∧
          stored session'.work.world info.name = some bundle ∧ bundle.fingerprint ≠ info.hash := by
  have htrail := h.accounted hstores fun moment hmem => hnames moment (List.mem_append_left _ hmem)
  have hpass := fun moment hmem => hnames moment (List.mem_append_right _ hmem)
  have haccounted := pass_accounted hstores hpass htrail hbundle
  rw [← Leftovers.after_append] at haccounted
  obtain ⟨next, hrun, hsame⟩ := sameOutput_bundle? hstores hbundle
  obtain ⟨start, assembled, hassemble, hfinish⟩ := Pass.run_ok_cases hrun
  have horderly : session.opening.state.Orderly [] [] := h.history.orderly
  have hlaid := hpass _ (List.mem_cons_of_mem _ (List.mem_append_left _
    (Pass.mem_runTrail_of_assemble hassemble))) _ rfl
  obtain ⟨hashes, hhashes, hget⟩ := Pass.finish_remembers
    (Pass.assemble_orderly horderly hassemble).1.indexed hlaid hfinish hinfo hassets
  rw [← hsame.fingerprints] at hhashes
  obtain ⟨bundle, hstored, hmatches⟩ := haccounted hashes info.name info.hash hhashes hget
  constructor
  · rintro ⟨kept, hkept, hfingerprint⟩ ⟨other, -, -, hother, hne⟩
    rw [hkept] at hother
    exact hne (Option.some.inj hother ▸ hfingerprint)
  · intro hnone
    by_cases hfingerprint : bundle.fingerprint = info.hash
    · exact ⟨bundle, hstored, hfingerprint⟩
    · obtain ⟨hleft, hnamed⟩ := hmatches.resolve_left hfingerprint
      exact (hnone ⟨bundle, hleft, hnamed, hstored, hfingerprint⟩).elim

end Session

/-! ## A project with a stylesheet -/

/-- The bundle that a file of a sketch was written from. -/
def Sketch.stored (sketch : Sketch) (q : Path) : Option PackagedBundle :=
  (sketch.written.filter fun bundle => bundle.name == q).getLast?

/-- Sketches store what is written. -/
theorem Sketch.stores_tools (start : Sketch) : start.tools.Stores Sketch.stored where
  write _ bundle sketch q := by
    show (sketch.write bundle).2.stored q = _ ∨ _ ∧ (sketch.write bundle).2.stored q = _
    unfold Sketch.write
    split
    · exact .inl rfl
    · cases hname : bundle.name == q with
      | true => exact .inr ⟨rfl, by simp [stored, hname]⟩
      | false => exact .inl (by simp [stored, hname])
  written _ bundle sketch q hok hname := by
    replace hok : (sketch.write bundle).1 = .ok () := hok
    show (sketch.write bundle).2.stored q = _
    unfold Sketch.write at hok ⊢
    split at hok
    · cases hok
    · rename_i hwritable
      rw [if_neg hwritable]
      simp [stored, hname]
  asks {sketch sketch'} h := by
    have hwritten : sketch'.written = sketch.written := by
      cases h with
      | resolve specifier importer => rfl
      | compile compiler p package =>
        show (sketch.compile p).2.written = sketch.written
        unfold Sketch.compile
        dsimp only
        split <;> rfl
      | implied p kind => rfl
      | arrivals => rfl
      | retrieve p =>
        show (sketch.retrieve p).2.written = sketch.written
        unfold Sketch.retrieve
        split <;> rfl
      | remember p unit inlined =>
        show (sketch.remember p unit inlined).written = sketch.written
        unfold Sketch.remember
        split <;> rfl
      | forget p =>
        show (sketch.forget p).written = sketch.written
        unfold Sketch.forget
        split <;> rfl
      | prepare p => rfl
      | update assets =>
        show (sketch.send _).written = sketch.written
        unfold Sketch.send
        split <;> rfl
      | alert failure =>
        show (sketch.send _).written = sketch.written
        unfold Sketch.send
        split <;> rfl
    funext q
    unfold stored
    rw [hwritten]
  watch p sketch := by
    show (sketch.watch p).2.stored = sketch.stored
    unfold Sketch.watch
    split <;> rfl
  unwatch p sketch := by
    show (sketch.unwatch p).stored = sketch.stored
    unfold Sketch.unwatch
    split <;> rfl
  close sketch := by
    show (Sketch.send _ .stop).stored = sketch.stored
    unfold Sketch.send
    split <;> rfl

namespace Session

/-- If a few visits show that the bundles have different names, they have different names in the pass. -/
theorem distinctNames_passTrail {session : Session κ π σ} {depth visits : Nat} {names : List Path}
    (h : session.plannedNames depth visits = some names)
    (hdifferent : names.Pairwise fun p q => (p == q) = false) :
    DistinctNames (session.passTrail depth) := by
  intro moment hmem tree hdeed
  obtain ⟨start, assembled, hassemble, rfl⟩ := laidOut_passTrail hmem hdeed
  unfold plannedNames at h
  rw [show Pass.assemble session.tools session.setup depth (session.work.tell .started) =
    some (.ok start, assembled) from hassemble] at h
  dsimp only at h
  split at h
  · rename_i hleft
    have hlayout := Layout.ofGraph_of_steps (List.isEmpty_iff.1 hleft)
    unfold Pass.layOut
    rw [hlayout]
    rw [← Option.some.inj h, List.pairwise_map] at hdifferent
    exact hdifferent
  · cases h

theorem distinctNames_append {trail more : List (Moment σ)} (h : DistinctNames trail)
    (hmore : DistinctNames more) : DistinctNames (trail ++ more) :=
  List.forall_mem_append.2 ⟨h, hmore⟩

/-- The files of a project whose script imports a stylesheet, in some version. -/
def sheetFiles (version : String) : List (Path × Option SketchFile) :=
  [(⟨"/main.js"⟩, some
      { content := version, hash := some version, dependencies := [{ specifier := "/main.css" }] }),
    (⟨"/main.css"⟩, some { content := version, hash := some version })]

/-- A session for the project. -/
def sheetSession : Session Unit Unit Sketch :=
  Session.new (.ofRequest ⟨"/"⟩ false {}) ⟨"/main.js"⟩ (.ofFallback ()) (.ofFallback ())
    ((Sketch.edit {} (sheetFiles "old")).tools) (Sketch.edit {} (sheetFiles "old"))

/-- The session with another version of the files, the changes of which are reported. -/
def revise (session : Session Unit Unit Sketch) (version : String) (unwritable : List String) :
    Session Unit Unit Sketch :=
  session.altered { session.work.world.edit (sheetFiles version) with unwritable }
    [⟨"/main.js"⟩, ⟨"/main.css"⟩]

/-- A pass has succeeded, and then a new version is there, of which the stylesheet cannot be written. -/
def revisedSession : Session Unit Unit Sketch :=
  (sheetSession.rehearsed 4 3).revise "new" ["/dist/main.css"]

/-- A pass over the new version has failed, and then the old version is there again. -/
def revertedSession : Session Unit Unit Sketch :=
  (revisedSession.rehearsed 4 3).revise "old" []

theorem Trail.revise {session : Session Unit Unit Sketch} {trail : List (Moment Sketch)}
    (h : session.Trail (.untouched Sketch.stored) trail) (hnames : DistinctNames trail) (version : String)
    (unwritable : List String) : ∃ more,
      (session.revise version unwritable).Trail (.untouched Sketch.stored) more ∧ DistinctNames more := by
  have hturns : Sketch.stored { session.work.world.edit (sheetFiles version) with unwritable } =
    Sketch.stored session.work.world := rfl
  obtain ⟨more, hmore, halters⟩ := h.altered hturns [⟨"/main.js"⟩, ⟨"/main.css"⟩]
  refine ⟨_, hmore, distinctNames_append hnames fun moment hmem tree hdeed => ?_⟩
  have hnone := halters moment hmem
  rw [hdeed] at hnone
  exact hnone.elim

/-- Whether the file of a bundle was written from a bundle with the reported fingerprint. -/
def asReported (session : Session Unit Unit Sketch) (info : BundleInfo) : Bool :=
  (session.work.world.stored info.name).any fun bundle => bundle.fingerprint == info.hash

/-- What comes of the passes.  After the last one the script is not as reported, but the stylesheet is. -/
theorem plan_revertedSession :
    (sheetSession.rehearse 4 3).isSome = true ∧
      sheetSession.plannedNames 4 3 = some [⟨"/dist/main.js"⟩, ⟨"/dist/main.css"⟩] ∧
    (revisedSession.rehearse 4 3).isSome = true ∧
      revisedSession.plannedNames 4 3 = some [⟨"/dist/main.js"⟩, ⟨"/dist/main.css"⟩] ∧
    revertedSession.plannedNames 4 3 = some [⟨"/dist/main.js"⟩, ⟨"/dist/main.css"⟩] ∧
    (revertedSession.rehearse 4 3).bind (fun result => result.1.toOption.map fun report =>
      report.bundles.map fun info => (info.assets.isEmpty, result.2.asReported info)) =
      some [(false, false), (false, true)] := by
  decide +kernel

theorem tools_revertedSession : revertedSession.tools = (Sketch.edit {} (sheetFiles "old")).tools :=
  (tools_altered _ _ _).trans ((tools_rehearsed revisedSession 4 3).trans
    ((tools_altered _ _ _).trans (tools_rehearsed sheetSession 4 3)))

theorem asReported_iff {session : Session Unit Unit Sketch} {info : BundleInfo} :
    session.asReported info = true ↔ ∃ bundle,
      Sketch.stored session.work.world info.name = some bundle ∧ bundle.fingerprint = info.hash := by
  unfold asReported
  rw [Option.any_eq_true]
  exact exists_congr fun bundle => and_congr_right fun _ => beq_iff_eq

/-- The session over the old version can come about, and its next pass succeeds; after it the script is not as
reported, but the stylesheet is. -/
theorem bundle?_revertedSession : ∃ trail report session' script sheet,
    revertedSession.Trail (.untouched Sketch.stored) trail ∧
      revertedSession.tools.Stores Sketch.stored ∧
      DistinctNames (trail ++ revertedSession.passTrail 4) ∧
      revertedSession.bundle? 4 = some (.ok report, session') ∧
      script ∈ report.bundles ∧ script.assets ≠ [] ∧ session'.asReported script = false ∧
      sheet ∈ report.bundles ∧ sheet.assets ≠ [] ∧ session'.asReported sheet = true := by
  obtain ⟨hfirst, hnames, hsecond, hnames', hnames'', hlast⟩ := plan_revertedSession
  have hdifferent : [Path.mk "/dist/main.js", ⟨"/dist/main.css"⟩].Pairwise fun p q => (p == q) = false := by
    decide
  have hnew : sheetSession.Trail (.untouched Sketch.stored) [] := .new _ _ _ _ _ trivial
  have hnone : DistinctNames ([] : List (Moment Sketch)) := fun _ h => by cases h
  obtain ⟨trail, hrevised, hdistinct⟩ := (hnew.rehearsed hfirst).revise
    (distinctNames_append hnone (distinctNames_passTrail hnames hdifferent)) "new" ["/dist/main.css"]
  obtain ⟨trail', hreverted, hdistinct'⟩ := (hrevised.rehearsed hsecond).revise
    (distinctNames_append hdistinct (distinctNames_passTrail hnames' hdifferent)) "old" []
  obtain ⟨⟨result, session'⟩, hrehearse, hresult⟩ := Option.bind_eq_some_iff.1 hlast
  cases result with
  | error failure => cases hresult
  | ok report =>
    obtain ⟨script, more, hbundles, hscript, hmore⟩ := List.map_eq_cons_iff.1 (Option.some.inj hresult)
    obtain ⟨sheet, none, rfl, hsheet, -⟩ := List.map_eq_cons_iff.1 hmore
    have hassets : ∀ {info : BundleInfo}, info.assets.isEmpty = false → info.assets ≠ [] :=
      fun hempty hnil => by simp [hnil] at hempty
    have hstores : revertedSession.tools.Stores Sketch.stored := by
      rw [tools_revertedSession]
      exact Sketch.stores_tools _
    exact ⟨trail', report, session', script, sheet, hreverted, hstores,
      distinctNames_append hdistinct' (distinctNames_passTrail hnames'' hdifferent),
      bundle?_of_rehearse hrehearse, hbundles ▸ List.mem_cons_self, hassets (Prod.mk.inj hscript).1,
      (Prod.mk.inj hscript).2, hbundles ▸ List.mem_cons_of_mem _ List.mem_cons_self,
      hassets (Prod.mk.inj hsheet).1, (Prod.mk.inj hsheet).2⟩

/-- After the last pass the file of the script was written from a bundle that the failed pass has left behind;
nothing of that kind is true of the stylesheet. -/
theorem stored_revertedSession : ∃ report session' script sheet, ∃ leftovers : List PackagedBundle,
    revertedSession.bundle? 4 = some (.ok report, session') ∧
      script ∈ report.bundles ∧ sheet ∈ report.bundles ∧
      (∃ bundle ∈ leftovers, (bundle.name == script.name) = true ∧
        Sketch.stored session'.work.world script.name = some bundle ∧ bundle.fingerprint ≠ script.hash) ∧
      ¬ ∃ bundle ∈ leftovers, (bundle.name == sheet.name) = true ∧
        Sketch.stored session'.work.world sheet.name = some bundle ∧ bundle.fingerprint ≠ sheet.hash := by
  obtain ⟨trail, report, session', script, sheet, htrail, hstores, hnames, hbundle, hscript, hassets, hfalse,
    hsheet, hassets', htrue⟩ := bundle?_revertedSession
  have hscripts := htrail.stored_iff hstores hnames hbundle hscript hassets
  have hsheets := htrail.stored_iff hstores hnames hbundle hsheet hassets'
  refine ⟨report, session', script, sheet, _, hbundle, hscript, hsheet, ?_, hsheets.1 (asReported_iff.1 htrue)⟩
  by_contra hnone
  have hreported := asReported_iff.2 (hscripts.2 hnone)
  rw [hfalse] at hreported
  cases hreported

/-- A file is not always as reported: a pass that fails can leave it written from another bundle, and the next
pass skips the bundle if its fingerprint is what it was before. -/
theorem exists_stored_otherwise :
    ¬ ∀ (session session' : Session Unit Unit Sketch) (trail : List (Moment Sketch)) (depth : Nat)
        (report : Report) (info : BundleInfo),
      session.Trail (.untouched Sketch.stored) trail → session.tools.Stores Sketch.stored →
        DistinctNames (trail ++ session.passTrail depth) →
          session.bundle? depth = some (.ok report, session') → info ∈ report.bundles → info.assets ≠ [] →
            ∃ bundle, Sketch.stored session'.work.world info.name = some bundle ∧
              bundle.fingerprint = info.hash := by
  intro hclaim
  obtain ⟨trail, report, session', script, -, htrail, hstores, hnames, hbundle, hscript, hassets, hfalse, -⟩ :=
    bundle?_revertedSession
  have hreported := asReported_iff.2
    (hclaim revertedSession session' trail 4 report script htrail hstores hnames hbundle hscript hassets)
  rw [hfalse] at hreported
  cases hreported

end Session
end Build
end ModuleBundler

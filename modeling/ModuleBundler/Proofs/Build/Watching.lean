import ModuleBundler.Proofs.Build.Ending
import ModuleBundler.Proofs.Build.Routing

/-!
# What is watched

A build has exactly those files watched whose changes concern it: the paths in the
index of its asset graph.  A path enters the index when an asset is made or when a
file was put into an asset, and it leaves the index when its asset is unloaded; each
of these steps tells the watcher at once.  So the two sets are equal at every moment,
whatever the tools answer, whenever changes are reported and however passes end.

Main results:

- Theorem {lit}`Step.keepsTracked`: every step keeps the watched files those of the index.
- Theorem {lit}`Session.Trail.tracked`: at every moment of a session exactly the paths of the index are
  watched, and each of them leads to a live asset; after a successful pass exactly the assets that the
  entry reaches are live, and only live assets wait.
-/

namespace ModuleBundler

/-- Which paths have a value after one was put. -/
theorem Path.Map.has_put_iff {α : Type} (map : Map α) (p q : Path) (a : α) :
    (map.put p a).has q = true ↔ (p == q) = true ∨ map.has q = true := by
  unfold has
  cases hsame : p == q with
  | true => simp [get?_put_self hsame]
  | false => simp [get?_put_of_ne hsame]

namespace Build

variable {κ π σ : Type}

/-! ## Watchers -/

/-- Whether files are watched as the build asks for: to watch a file never fails and adds it to those that
are watched, to watch it no more removes it, and no other tool changes which files are watched. -/
structure Toolset.Tracks (tools : Toolset κ π σ) (watched : σ → Path → Prop) : Prop where
  watch : ∀ p world, (tools.watch p world).1 = .ok () ∧
    ∀ q, watched (tools.watch p world).2 q ↔ (p == q) = true ∨ watched world q
  unwatch : ∀ p world q, watched (tools.unwatch p world) q ↔ (p == q) = false ∧ watched world q
  asks : ∀ {world world' : σ}, tools.Asks world world' → ∀ q, watched world' q ↔ watched world q
  write : ∀ packager bundle world q, watched (tools.write packager bundle world).2 q ↔ watched world q

/-- A world in which nothing is watched at first, and in which nobody but the build, which is not stopped,
changes what is watched. -/
def Outside.apart (watched : σ → Path → Prop) : Outside σ where
  begins world := ∀ q, ¬ watched world q
  turns world world' := ∀ q, watched world' q ↔ watched world q
  stops := False

namespace Work

/-- Whether exactly the paths of the index are watched. -/
def Tracked (watched : σ → Path → Prop) (work : Work σ) : Prop :=
  ∀ q, watched work.world q ↔ work.state.graph.index.has q = true

variable {tools : Toolset κ π σ} {watched : σ → Path → Prop}

theorem watched_watch (htracks : tools.Tracks watched) (work : Work σ) (p q : Path) :
    watched (work.watch tools p).world q ↔ (p == q) = true ∨ watched work.world q := by
  obtain ⟨hok, hwatch⟩ := htracks.watch p work.world
  unfold watch
  generalize tools.watch p work.world = result at hok hwatch
  obtain ⟨result, world⟩ := result
  cases hok
  exact hwatch q

/-- Where the graph and the watched files stay as they are, or both are extended by a path, exactly the
paths of the index are watched. -/
theorem Tracked.put (htracks : tools.Tracks watched) {work : Work σ} (h : work.Tracked watched)
    {graph : AssetGraph} {p : Path} {id : AssetId} (hindex : graph.index = work.state.graph.index.put p id) :
    (({ work with state := { work.state with graph } } : Work σ).watch tools p).Tracked watched := by
  intro q
  rw [watched_watch htracks, state_watch, hindex, Path.Map.has_put_iff]
  exact or_congr_right (h q)

/-- An asset that is made is watched. -/
theorem Tracked.enter (htracks : tools.Tracks watched) (types : AssetTypes κ) {work : Work σ}
    (h : work.Tracked watched) (module : Lookup.Modules.Resolved) :
    (work.enter tools types module).2.Tracked watched := by
  unfold Work.enter AssetGraph.insert
  cases work.state.graph.named? module.path with
  | some asset => exact h
  | none => exact h.put htracks rfl

/-- A file that was put into an asset is watched. -/
theorem Tracked.inline (htracks : tools.Tracks watched) {work : Work σ} (h : work.Tracked watched)
    (id : AssetId) (p : Path) : (work.inline tools id p).Tracked watched := by
  unfold Work.inline AssetGraph.makeAlias
  cases work.state.graph.named? p with
  | some asset => exact h
  | none => exact h.put htracks rfl

/-- Whatever imports are recorded, exactly the paths of the index are watched. -/
theorem Tracked.recordAll (htracks : tools.Tracks watched) (types : AssetTypes κ) (id : AssetId)
    (modules : List (Dependency × Lookup.Modules.Resolved)) {work : Work σ} (h : work.Tracked watched) :
    (Work.recordAll tools types id modules work).2.Tracked watched := by
  induction modules generalizing work with
  | nil => exact h
  | cons found rest ih =>
    have hrecord : (work.record tools types id found).2.Tracked watched := by
      unfold Work.record
      split
      · exact h.inline htracks id found.2.path
      · exact h.enter htracks types found.2
    exact ih hrecord

theorem watched_unwatchAll (htracks : tools.Tracks watched) (paths : List Path) (world : σ) (q : Path) :
    watched (paths.foldl (fun world p => tools.unwatch p world) world) q ↔
      (¬ ∃ p ∈ paths, (p == q) = true) ∧ watched world q := by
  induction paths generalizing world with
  | nil => simp
  | cons p rest ih =>
    rw [List.foldl_cons, ih, htracks.unwatch]
    simp only [List.exists_mem_cons_iff, not_or, Bool.not_eq_true]
    tauto

/-- What is unloaded is watched no more. -/
theorem Tracked.unload (htracks : tools.Tracks watched) {work : Work σ} (hrouted : work.state.Routed)
    (h : work.Tracked watched) : (Pass.unload tools work).Tracked watched := by
  intro q
  obtain ⟨-, hreleased, hindex⟩ := State.unload_releases hrouted q
  have hworld : watched (Pass.unload tools work).world q ↔ _ :=
    watched_unwatchAll htracks work.state.unload.1 work.world q
  rw [hworld, hreleased, h q]
  show _ ↔ (work.state.unload.2.graph.index.get? q).isSome = true
  rw [hindex, Path.Map.has]
  cases work.state.graph.index.get? q with
  | none => simp
  | some id => by_cases horphan : id ∈ work.state.graph.orphans <;> simp [Option.filter, horphan]

end Work

/-! ## Steps -/

/-- Taking a batch off the queue has nothing to do with paths. -/
theorem State.index_drain (state : State) (invalidate : Bool) :
    (state.drain invalidate).2.graph.index = state.graph.index :=
  state.graph_drain (fun graph => graph.index = state.graph.index) invalidate (fun _ _ h => h) rfl

/-- No tool that is asked changes which files are watched. -/
theorem Toolset.Tracks.asked {tools : Toolset κ π σ} {watched : σ → Path → Prop}
    (htracks : tools.Tracks watched) {world world' : σ}
    (hasked : Relation.ReflTransGen tools.Asks world world') (q : Path) :
    watched world' q ↔ watched world q := by
  induction hasked with
  | refl => exact Iff.rfl
  | tail _ hasks ih => exact (htracks.asks hasks q).trans ih

/-- Writing bundles changes nothing about which files are watched. -/
theorem Toolset.Tracks.written {tools : Toolset κ π σ} {watched : σ → Path → Prop}
    (htracks : tools.Tracks watched) {bundles : List PackagedBundle} {world world' : σ}
    (hwrites : tools.Writes bundles world world') (q : Path) : watched world' q ↔ watched world q := by
  induction hwrites with
  | nil => exact Iff.rfl
  | cons packager bundle world _ ih => exact ih.trans (htracks.write packager bundle world q)
  | stop packager bundle _ world _ => exact htracks.write packager bundle world q

/-- Every step keeps the watched files those of the index. -/
theorem Step.keepsTracked {tools : Toolset κ π σ} {watched : σ → Path → Prop} (htracks : tools.Tracks watched)
    (hwatches : tools.watches = true) {work : Work σ} {moment : Moment σ}
    (h : Step tools (.apart watched) work moment) (hrouted : work.state.Routed)
    (htracked : work.Tracked watched) : moment.work.Tracked watched := by
  cases h with
  | begun hstate hworld =>
    intro q
    rw [hstate, hworld]
    exact htracked q
  | asked hstate hasked =>
    intro q
    rw [hstate]
    exact (htracks.asked hasked q).trans (htracked q)
  | noticed p =>
    intro q
    show watched (work.notify p).2.world q ↔ (work.notify p).2.state.graph.index.has q = true
    rw [Work.world_notify, (work.notices_notify p).graph]
    exact htracked q
  | taken invalidate =>
    intro q
    show _ ↔ (work.state.drain invalidate).2.graph.index.has q = true
    rw [State.index_drain]
    exact htracked q
  | claimed hclaim =>
    obtain ⟨hstate, hworld⟩ := Load.of_claim hclaim
    obtain ⟨-, -, hclaimed⟩ := State.of_claim hstate
    intro q
    rw [hclaimed, hworld]
    exact htracked q
  | kept unit _ => exact htracked
  | recorded types modules _ => exact htracked.recordAll htracks types _ modules
  | returned _ => exact htracked
  | entered types module => exact htracked.enter htracks types module
  | sent assets =>
    intro q
    exact (htracks.asks (.update assets work.world) q).trans (htracked q)
  | laidOut outDir start =>
    intro q
    have hcontent := work.state.sameContent_layout outDir start
    show _ ↔ (work.state.layout outDir start).graph.index.has q = true
    rw [hcontent.index]
    exact htracked q
  | written hwrites =>
    intro q
    exact (htracks.written hwrites q).trans (htracked q)
  | finished hashes =>
    have hremembered : State.Routed { work.state with fingerprints := some hashes } :=
      ⟨hrouted.indexed, hrouted.routed, hrouted.waiting⟩
    exact Work.Tracked.unload htracks hremembered htracked
  | edited hturns =>
    intro q
    exact (hturns q).trans (htracked q)
  | closed hcloses =>
    rcases hcloses with hstops | hnone
    · exact hstops.elim
    · rw [hwatches] at hnone
      cases hnone

/-! ## Sessions -/

namespace Session

/-- At every moment of a session exactly the paths of the index are watched, and each of them leads to a live
asset.  After a successful pass exactly the assets are live that can be reached from the asset that the build
starts from, and only live assets wait. -/
theorem Trail.tracked {watched : σ → Path → Prop} {session : Session κ π σ} {trail : List (Moment σ)}
    (h : session.Trail (.apart watched) trail) (htracks : session.tools.Tracks watched)
    (hwatches : session.tools.watches = true) :
    (∀ moment ∈ trail, moment.work.Tracked watched ∧ moment.work.state.graph.Routed) ∧
      session.work.Tracked watched ∧ session.work.state.graph.Routed ∧
      ∀ depth report session', session.bundle? depth = some (.ok report, session') →
        ∃ start, session'.work.state.start = some start ∧
          (∀ id, session'.work.state.graph.IsLive id ↔ session'.work.state.graph.Reaches start id) ∧
          ∀ id ∈ session'.work.state.queue, session'.work.state.graph.IsLive id := by
  obtain ⟨world, hbegins, hlinked⟩ := h.linked
  have hempty : Work.Tracked watched ⟨{}, world, []⟩ := by
    intro q
    simp [hbegins q, AssetGraph.empty, Path.Map.has]
  obtain ⟨hmoments, hsession⟩ := hlinked.always
    (fun work => work.state.Routed ∧ work.Tracked watched) (fun _ => True)
    (fun hwork hstep _ => ⟨hstep.routed hwork.1, hstep.keepsTracked htracks hwatches hwork.1 hwork.2⟩)
    (fun _ _ => trivial) ⟨State.routed_empty, hempty⟩
  refine ⟨fun moment hmem => ⟨(hmoments moment hmem).2, (hmoments moment hmem).1.routed⟩, hsession.2,
    hsession.1.routed, fun depth report session' hbundle => ?_⟩
  obtain ⟨start, hstart, hreached⟩ := h.history.reached hbundle
  exact ⟨start, hstart, hreached, (Trail.pass h hbundle).routed.2.waiting⟩

/-! ## A project whose watched files are listed -/

/-- The rules of a project whose main file imports another one, and into which a third one is put. -/
def listedRules : Rules Unit Unit where
  find specifier _ := .ok ⟨⟨specifier⟩, {}⟩
  translate _ p _ _ :=
    if p == ⟨"/main.js"⟩ then
      .ok ⟨.empty, "", [{ specifier := "/x.js" }, { specifier := "/part.js", inlined := true }]⟩
    else .ok ⟨.empty, "", []⟩
  prepared _ := .ok ()

/-- Tools for the project; the world is the list of the files that are watched. -/
def listedTools : Toolset Unit Unit (List Path) :=
  { Toolset.ofRules listedRules fun _ _ => () with
    watch := fun p files => (.ok (), p :: files)
    unwatch := fun p files => files.filter fun q => !(q == p) }

/-- Whether a file is in the list. -/
def Listed (files : List Path) (q : Path) : Prop :=
  ∃ p ∈ files, (p == q) = true

/-- A session for the project. -/
def listedSession : Session Unit Unit (List Path) :=
  Session.new (.ofRequest ⟨"/"⟩ false {}) ⟨"/main.js"⟩ (.ofFallback ()) (.ofFallback ()) listedTools []

theorem tracks_listedTools : listedTools.Tracks Listed where
  watch p files := ⟨rfl, fun q => List.exists_mem_cons_iff _ _ _⟩
  unwatch p files q := by
    constructor
    · rintro ⟨r, hmem, hr⟩
      obtain ⟨hmem, hne⟩ := List.mem_filter.1 hmem
      refine ⟨?_, r, hmem, hr⟩
      cases hpq : p == q with
      | false => rfl
      | true => simp [Path.beq_trans hr (Path.beq_symm hpq)] at hne
    · rintro ⟨hpq, r, hmem, hr⟩
      refine ⟨r, List.mem_filter.2 ⟨hmem, ?_⟩, hr⟩
      cases hrp : r == p with
      | false => rfl
      | true =>
        rw [Path.beq_trans (Path.beq_symm hrp) hr] at hpq
        cases hpq
  asks h q := by
    cases h <;> exact Iff.rfl
  write _ _ _ _ := Iff.rfl

/-- The first pass succeeds.  After it exactly the files are listed that the index knows, and exactly the
assets are live that the entry reaches. -/
theorem tracked_listedSession : ∃ report session',
    listedSession.bundle? 3 = some (.ok report, session') ∧
      session'.Trail (.apart Listed) (listedSession.passTrail 3) ∧
      (∀ q, Listed session'.work.world q ↔ session'.work.state.graph.index.has q = true) ∧
      session'.work.state.graph.Routed ∧
      ∃ start, session'.work.state.start = some start ∧
        (∀ id, session'.work.state.graph.IsLive id ↔ session'.work.state.graph.Reaches start id) ∧
        ∀ id ∈ session'.work.state.queue, session'.work.state.graph.IsLive id := by
  have hassemble : (Pass.assemble listedSession.tools listedSession.setup 3
      (listedSession.work.tell .started)).map (fun result => result.1.toOption) = some (some ⟨0⟩) := by
    decide
  obtain ⟨⟨result, assembled⟩, hassembled, hresult⟩ := Option.map_eq_some_iff.1 hassemble
  cases result with
  | error failure => cases hresult
  | ok start =>
    have hwrite : ∀ packager bundle (files : List Path), True →
        (listedSession.tools.write packager bundle files).1 = .ok () ∧ True :=
      fun _ _ _ _ => ⟨rfl, trivial⟩
    obtain ⟨report, next, hfinish⟩ : ∃ report next,
        Pass.finish listedSession.tools listedSession.setup start assembled = (.ok report, next) :=
      Pass.finish_ok hwrite listedSession.setup start trivial
    have hrun : Pass.run listedSession.tools listedSession.setup 3 (listedSession.work.tell .started) =
        some (.ok report, next) := by
      unfold Pass.run
      rw [hassembled, ← hfinish]
    obtain ⟨session', hbundle⟩ := bundle?_of_run hrun
    have hnew : listedSession.Trail (.apart Listed) [] := by
      refine .new _ _ _ _ _ ?_
      rintro q ⟨p, hmem, -⟩
      cases hmem
    have hpass := hnew.pass hbundle
    have htools := tools_of_bundle? hbundle
    obtain ⟨-, htracked, hrouted, -⟩ :=
      hpass.tracked (htools ▸ tracks_listedTools) (by rw [htools]; rfl)
    obtain ⟨-, -, -, hreached⟩ := hnew.tracked tracks_listedTools rfl
    exact ⟨report, session', hbundle, hpass, htracked, hrouted, hreached 3 report session' hbundle⟩

end Session
end Build
end ModuleBundler

import ModuleBundler.Build.Sketch
import ModuleBundler.Proofs.Build.Assembling
import ModuleBundler.Proofs.Build.Rehearsal
import ModuleBundler.Proofs.Build.Routing

/-!
# Files that are put into assets

A file that was put into an asset concerns that asset: its path leads there, so that
a change of the file lets the asset wait.  A path leads to one asset only.  It stays
with the asset until it is taken up again, by an asset into which the file is put as
well or by an asset of its own; and a path that is the identity of an asset leads to
that asset in any case.

Main results:

- Theorem {lit}`Work.recordAll_inlined`: a file that is put into an asset leads to it, unless it is an asset
  of its own.
- Theorem {lit}`Step.routesTo`: a path leads to the same asset as long as nothing takes it up.
- Theorem {lit}`Session.Trail.queued_of_change`: a change of a file reaches the asset of that name, and the
  asset into which the file was put the last time.
-/

namespace ModuleBundler
namespace AssetGraph

/-! ## Paths that lead to assets -/

/-- Whether an asset was made and is not live any more. -/
def IsGone (graph : AssetGraph) (id : AssetId) : Prop :=
  id.index < graph.size ∧ ¬ graph.IsLive id

/-- Whether a path leads to an asset as long as the asset is live. -/
def RoutesTo (graph : AssetGraph) (p : Path) (id : AssetId) : Prop :=
  graph.index.get? p = some id ∨ graph.IsGone id

variable {graph : AssetGraph} {p : Path} {id : AssetId}

/-- What is gone does not come back. -/
theorem IsGone.update (h : graph.IsGone id) (other : AssetId) (change : Asset → Asset) :
    (graph.update other change).IsGone id :=
  ⟨by rw [size_update]; exact h.1, fun hlive => h.2 ((isLive_update _ _ _ _).1 hlive)⟩

theorem IsGone.insert (h : graph.IsGone id) (q : Path) (kind : Kind) (package : Package) :
    (graph.insert q kind package).2.IsGone id := by
  unfold AssetGraph.insert
  split
  · exact h
  · refine ⟨?_, ?_⟩
    · have hlt := h.1
      simp only [add, size, List.length_append] at hlt ⊢
      omega
    · rintro ⟨asset, hget⟩
      have hlt := h.1
      rw [get?_add, if_neg (by omega)] at hget
      exact h.2 ⟨asset, hget⟩

theorem IsGone.makeAlias (h : graph.IsGone id) (q : Path) (owner : AssetId) :
    (graph.makeAlias q owner).2.IsGone id := by
  refine ⟨by rw [size_makeAlias]; exact h.1, ?_⟩
  rintro ⟨asset, hget⟩
  rw [get?_makeAlias] at hget
  exact h.2 ⟨asset, hget⟩

theorem IsGone.remove (h : graph.IsGone id) (other : AssetId) : (graph.remove other).2.IsGone id := by
  refine ⟨by rw [size_remove]; exact h.1, ?_⟩
  rintro ⟨asset, hget⟩
  by_cases hother : id = other
  · rw [hother, get?_remove_self] at hget
    cases hget
  · rw [get?_remove_of_ne hother] at hget
    exact h.2 ⟨asset, hget⟩

theorem RoutesTo.update (h : graph.RoutesTo p id) (other : AssetId) (change : Asset → Asset) :
    (graph.update other change).RoutesTo p id :=
  h.imp_right fun hgone => hgone.update other change

/-- An asset of another name does not change where a path leads. -/
theorem RoutesTo.insert (h : graph.RoutesTo p id) {q : Path} (hq : (q == p) = false) (kind : Kind)
    (package : Package) : (graph.insert q kind package).2.RoutesTo p id := by
  rcases h with hget | hgone
  · refine .inl ?_
    unfold AssetGraph.insert
    split
    · exact hget
    · exact (Path.Map.get?_put_of_ne hq graph.index _).trans hget
  · exact .inr (hgone.insert q kind package)

/-- An alias of another name does not change where a path leads. -/
theorem RoutesTo.makeAlias (h : graph.RoutesTo p id) {q : Path} (hq : (q == p) = false) (owner : AssetId) :
    (graph.makeAlias q owner).2.RoutesTo p id := by
  rcases h with hget | hgone
  · refine .inl ?_
    unfold AssetGraph.makeAlias
    split
    · exact hget
    · exact (Path.Map.get?_put_of_ne hq graph.index _).trans hget
  · exact .inr (hgone.makeAlias q owner)

/-- When an asset is removed, the paths that lead to others stay. -/
theorem RoutesTo.remove (h : graph.RoutesTo p id) (hrouted : graph.Routed) (other : AssetId) :
    (graph.remove other).2.RoutesTo p id := by
  rcases h with hget | hgone
  · by_cases hother : id = other
    · obtain ⟨asset, hasset⟩ := hrouted p id hget
      refine .inr ⟨by rw [size_remove]; exact lt_size_of_get? hasset, ?_⟩
      rintro ⟨asset, hgone⟩
      rw [hother, get?_remove_self] at hgone
      cases hgone
    · refine .inl ?_
      rw [hrouted.index_remove, hget]
      simp [Option.filter, hother]
  · exact .inr (hgone.remove other)

/-- Changes of places do not change where paths lead. -/
theorem placewise_routesTo (p : Path) (id : AssetId) : Placewise fun graph => graph.RoutesTo p id where
  update other _ _ h := h.update other _

theorem RoutesTo.withoutPlace (h : graph.RoutesTo p id) :
    (graph.updateAll Asset.withoutPlace).RoutesTo p id := by
  refine h.imp_right fun hgone => ⟨?_, fun hlive => hgone.2 ?_⟩
  · simpa [size, updateAll] using hgone.1
  · exact (graph.sameContent_withoutPlace.isLive_iff id).1 hlive

/-- A path that leads to a live asset leads there in the index. -/
theorem RoutesTo.owner? (h : graph.RoutesTo p id) (hlive : graph.IsLive id) : graph.owner? p = some id := by
  rcases h with hget | hgone
  · unfold AssetGraph.owner?
    rw [hget]
    simp [Option.filter, isLive_iff_isSome.1 hlive]
  · exact (hgone.2 hlive).elim

/-- The identity of a live asset leads to it. -/
theorem routesTo_identity (h : graph.Indexed) {asset : Asset} (hget : graph.get? id = some asset)
    (hsame : (asset.identity == p) = true) : graph.RoutesTo p id := by
  refine .inl ?_
  rw [← graph.index_get?_congr hsame]
  exact h.found hget

/-- Whether a path leads to an asset, or is the identity of one. -/
def Takes (graph : AssetGraph) (p : Path) (id : AssetId) : Prop :=
  graph.index.get? p = some id ∨
    ∃ other asset, graph.get? other = some asset ∧ (asset.identity == p) = true

theorem Takes.update (h : graph.Takes p id) (other : AssetId) {change : Asset → Asset}
    (hmodule : Asset.KeepsModule change) : (graph.update other change).Takes p id := by
  refine h.imp_right fun ⟨owner, asset, hget, hsame⟩ => ?_
  by_cases hother : owner = other
  · subst hother
    exact ⟨owner, change asset, by rw [get?_update_self, hget]; rfl, by rw [hmodule.identity]; exact hsame⟩
  · exact ⟨owner, asset, by rw [get?_update_of_ne hother, hget], hsame⟩

theorem Takes.insert (h : graph.Takes p id) (q : Path) (kind : Kind) (package : Package) :
    (graph.insert q kind package).2.Takes p id := by
  rcases h with hget | ⟨other, asset, hother, hsame⟩
  · unfold AssetGraph.insert
    split
    · exact .inl hget
    · cases hq : q == p with
      | true =>
        have hnew : (graph.add q kind package).get? ⟨graph.size⟩ =
            some { id := ⟨graph.size⟩, identity := q, kind, package } := by
          rw [get?_add, if_pos rfl]
        exact .inr ⟨⟨graph.size⟩, _, hnew, hq⟩
      | false => exact .inl ((Path.Map.get?_put_of_ne hq graph.index _).trans hget)
  · exact .inr ⟨other, asset, get?_insert_of_get? hother _ _ _, hsame⟩

theorem Takes.makeAlias (h : graph.Takes p id) (q : Path) : (graph.makeAlias q id).2.Takes p id := by
  rcases h with hget | ⟨other, asset, hother, hsame⟩
  · refine .inl ?_
    unfold AssetGraph.makeAlias
    split
    · exact hget
    · cases hq : q == p with
      | true => exact Path.Map.get?_put_self hq _ _
      | false => exact (Path.Map.get?_put_of_ne hq graph.index _).trans hget
  · exact .inr ⟨other, asset, by rw [get?_makeAlias, hother], hsame⟩

/-- After an alias was made its path leads to the owner, or it is the identity of an asset. -/
theorem takes_makeAlias (h : graph.Indexed) {q : Path} (hq : (q == p) = true) (id : AssetId) :
    (graph.makeAlias q id).2.Takes p id := by
  unfold AssetGraph.makeAlias
  cases hnamed : graph.named? q with
  | none => exact .inl (Path.Map.get?_put_self hq _ _)
  | some asset =>
    obtain ⟨hget, hsame⟩ := get?_of_named? h hnamed
    exact .inr ⟨asset.id, asset, hget, Path.beq_trans hsame hq⟩

/-- A path that is not the identity of another asset leads where it was taken up. -/
theorem Takes.routesTo (h : graph.Takes p id) (hindexed : graph.Indexed)
    (hown : ∀ other asset, graph.get? other = some asset → (asset.identity == p) = true → other = id) :
    graph.RoutesTo p id := by
  rcases h with hget | ⟨other, asset, hget, hsame⟩
  · exact .inl hget
  · rw [← hown other asset hget hsame]
    exact routesTo_identity hindexed hget hsame

end AssetGraph

namespace Build

variable {κ π σ : Type}

/-! ## Recording imports -/

namespace Work

variable {tools : Toolset κ π σ} {types : AssetTypes κ} {p : Path} {id : AssetId}

theorem recordAll_takes (modules : List (Dependency × Lookup.Modules.Resolved)) {work : Work σ}
    (h : work.state.graph.Takes p id) :
    (recordAll tools types id modules work).2.state.graph.Takes p id := by
  induction modules generalizing work with
  | nil => exact h
  | cons found rest ih =>
    refine @ih (work.record tools types id found).2 ?_
    rcases record_cases tools types id found work with ⟨-, hstate⟩ | ⟨-, hstate⟩
    · rw [hstate]
      exact h.makeAlias _
    · rw [hstate]
      exact (h.insert _ _ _).update id {}

/-- A file that is put into an asset leads to it, unless the file is an asset of its own. -/
theorem recordAll_inlined {modules : List (Dependency × Lookup.Modules.Resolved)} {work : Work σ}
    {link : Dependency × Lookup.Modules.Resolved} (hrouted : work.state.Routed)
    (hlive : work.state.graph.IsLive id) (hmem : link ∈ modules) (hinlined : link.1.inlined = true)
    (hpath : (link.2.path == p) = true) :
    (recordAll tools types id modules work).2.state.graph.Takes p id := by
  induction modules generalizing work with
  | nil => cases hmem
  | cons found rest ih =>
    rcases List.mem_cons.1 hmem with rfl | hmem
    · refine @recordAll_takes κ π σ tools types p id rest (work.record tools types id link).2 ?_
      unfold record
      rw [if_pos hinlined, inline_eq]
      exact AssetGraph.takes_makeAlias hrouted.indexed hpath id
    · refine @ih (work.record tools types id found).2 ?_ ?_ hmem
      · exact recordAll_routed tools types [found] hrouted hlive
      · exact recordAll_growing (AssetGraph.growing_isLive types id) tools id [found] hlive

/-- Imports of other paths do not change where a path leads. -/
theorem recordAll_routesTo {modules : List (Dependency × Lookup.Modules.Resolved)} {work : Work σ}
    {importer : AssetId} (hrest : ∀ found ∈ modules, (found.2.path == p) = false)
    (h : work.state.graph.RoutesTo p id) :
    (recordAll tools types importer modules work).2.state.graph.RoutesTo p id := by
  induction modules generalizing work with
  | nil => exact h
  | cons found rest ih =>
    obtain ⟨hfound, hrest⟩ := List.forall_mem_cons.1 hrest
    refine @ih (work.record tools types importer found).2 hrest ?_
    rcases record_cases tools types importer found work with ⟨-, hstate⟩ | ⟨-, hstate⟩
    · rw [hstate]
      exact h.makeAlias hfound importer
    · rw [hstate]
      exact (h.insert hfound _ _).update importer _

end Work

/-! ## Steps -/

/-- Whether a path was taken up: the file is an import of an asset, put into it or not, or the entry. -/
def Deed.TakesUp (p : Path) : Deed → Prop
  | .recorded _ modules => ∃ found ∈ modules, (found.2.path == p) = true
  | .entered module => (module.path == p) = true
  | _ => False

namespace State

variable {p : Path} {id : AssetId}

/-- Taking a batch off the queue does not change where paths lead. -/
theorem drain_routesTo {state : State} (h : state.graph.RoutesTo p id) (invalidate : Bool) :
    (state.drain invalidate).2.graph.RoutesTo p id :=
  state.graph_drain (fun graph => graph.RoutesTo p id) invalidate (fun other _ h => h.update other _) h

/-- Unloading does not change where the paths of other assets lead. -/
theorem unload_routesTo {state : State} (h : state.graph.RoutesTo p id) (hrouted : state.Routed) :
    state.unload.2.graph.RoutesTo p id := by
  refine (unload_invariant (fun state => state.Routed ∧ state.graph.RoutesTo p id) ?_ ⟨hrouted, h⟩).2
  exact fun other h => ⟨h.1.discard other, h.2.remove h.1.routed other⟩

end State

/-- A path leads to the same asset as long as nothing takes it up. -/
theorem Step.routesTo {tools : Toolset κ π σ} {outside : Outside σ} {work : Work σ} {moment : Moment σ}
    {p : Path} {id : AssetId} (h : Step tools outside work moment) (hrouted : work.state.Routed)
    (hrest : ¬ moment.deed.TakesUp p) (hleads : work.state.graph.RoutesTo p id) :
    moment.work.state.graph.RoutesTo p id := by
  cases h with
  | begun hstate _ => exact hstate ▸ hleads
  | asked hstate _ => exact hstate ▸ hleads
  | noticed q =>
    rw [(work.notices_notify q).graph]
    exact hleads
  | taken invalidate => exact State.drain_routesTo hleads invalidate
  | claimed hclaim =>
    obtain ⟨-, -, hclaimed⟩ := State.of_claim (Load.of_claim hclaim).1
    rw [hclaimed]
    exact hleads.update _ _
  | kept unit _ => exact hleads.update _ _
  | recorded types modules _ =>
    refine Work.recordAll_routesTo (fun found hmem => ?_) hleads
    cases hpath : found.2.path == p with
    | false => rfl
    | true => exact (hrest ⟨found, hmem, hpath⟩).elim
  | returned _ => exact hleads.update _ _
  | entered types module =>
    have hpath : (module.path == p) = false := by
      cases hpath : module.path == p with
      | false => rfl
      | true => exact (hrest hpath).elim
    show (work.enter tools types module).2.state.graph.RoutesTo p id
    rw [(work.enter_eq tools types module).2]
    exact hleads.insert hpath _ _
  | sent assets => exact hleads
  | laidOut outDir start =>
    exact (AssetGraph.placewise_routesTo p id).ofGraph hleads.withoutPlace outDir start
  | written _ => exact hleads
  | finished hashes =>
    have hremembered : State.Routed { work.state with fingerprints := some hashes } :=
      ⟨hrouted.indexed, hrouted.routed, hrouted.waiting⟩
    exact State.unload_routesTo hleads hremembered
  | edited _ => exact hleads
  | closed _ => exact hleads

/-! ## Changes -/

/-- A change of a file whose path leads to a live asset lets the asset wait. -/
theorem Session.queueChange_of_routesTo {session : Session κ π σ} {p : Path} {id : AssetId}
    (h : session.work.state.graph.RoutesTo p id) (hlive : session.work.state.graph.IsLive id) :
    (session.queueChange p).1 = true ∧ id ∈ (session.queueChange p).2.work.state.queue := by
  have hnotify : session.work.state.notify p = (some id, session.work.state.enqueue id) := by
    unfold State.notify
    rw [h.owner? hlive]
  unfold queueChange Work.notify
  rw [hnotify]
  exact ⟨rfl, mem_includeLast id session.work.state.queue⟩

/-- A change of a file is accepted and lets the asset of that name wait.  If the imports of a live asset, as
they were recorded the last time, put a file into it that was no other asset then, and nothing has taken up
the path of the file since, a change of the file is accepted and lets that asset wait. -/
theorem Session.Trail.queued_of_change {outside : Outside σ} {session : Session κ π σ}
    {trail : List (Moment σ)} (h : session.Trail outside trail) (p : Path) :
    (∀ id asset, session.work.state.graph.get? id = some asset → (asset.identity == p) = true →
      (session.queueChange p).1 = true ∧ id ∈ (session.queueChange p).2.work.state.queue) ∧
    ∀ before id modules work after link,
      trail = before ++ ⟨.recorded id modules, work⟩ :: after → link ∈ modules → link.1.inlined = true →
        (link.2.path == p) = true → (∀ moment ∈ after, ¬ moment.deed.TakesUp p) →
          (∀ other asset, work.state.graph.get? other = some asset → (asset.identity == p) = true →
            other = id) →
            session.work.state.graph.IsLive id →
              (session.queueChange p).1 = true ∧ id ∈ (session.queueChange p).2.work.state.queue := by
  refine ⟨fun id asset hget hsame => ?_, ?_⟩
  · exact queueChange_of_routesTo (AssetGraph.routesTo_identity h.routed.2.indexed hget hsame) ⟨asset, hget⟩
  rintro before id modules work after link rfl hlink hinlined hpath hrest hown hlive
  obtain ⟨world, -, hlinked⟩ := h.linked
  obtain ⟨hbefore, hafter⟩ := hlinked.split
  have hrouted : work.state.Routed := h.routed.1 ⟨.recorded id modules, work⟩ (by simp)
  have htakes : work.state.graph.Takes p id := by
    obtain ⟨recording, hrecording, hstep⟩ := hbefore.last
    obtain ⟨-, hready⟩ := hrecording.always (fun work => work.state.Routed) (fun _ => True)
      (fun hwork hstep _ => hstep.routed hwork) (fun _ _ => trivial) State.routed_empty
    cases hstep with
    | recorded types _ hlive => exact Work.recordAll_inlined hready hlive hlink hinlined hpath
  have hleads := htakes.routesTo hrouted.indexed hown
  obtain ⟨-, -, hend⟩ := hafter.always
    (fun work => work.state.Routed ∧ work.state.graph.RoutesTo p id) (fun deed => ¬ deed.TakesUp p)
    (fun hwork hstep hdeed => ⟨hstep.routed hwork.1, hstep.routesTo hwork.1 hdeed hwork.2⟩)
    hrest ⟨hrouted, hleads⟩
  exact queueChange_of_routesTo hend hlive

/-! ## A project with a theme -/

namespace Session

/-- A sketch whose main file imports a list of colors and a theme.  The colors are put into the theme as
well, and so is a list of sizes. -/
def themeSketch : Sketch where
  files := Path.Map.empty
    |>.put ⟨"/main.js"⟩
      { content := "main", hash := some "main"
        dependencies := [{ specifier := "/colors.less" }, { specifier := "/theme.less" }] }
    |>.put ⟨"/colors.less"⟩ { content := "colors", hash := some "colors" }
    |>.put ⟨"/theme.less"⟩
      { content := "theme", hash := some "theme"
        dependencies := [{ specifier := "/colors.less", inlined := true },
          { specifier := "/sizes.less", inlined := true }] }
    |>.put ⟨"/sizes.less"⟩ { content := "sizes" }

/-- A session for the sketch. -/
def themeSession : Session Unit Unit Sketch :=
  Session.new (.ofRequest ⟨"/"⟩ false {}) ⟨"/main.js"⟩ (.ofFallback ()) (.ofFallback ())
    themeSketch.tools themeSketch

/-- The files that are put into the theme. -/
def themeParts : List (Dependency × Lookup.Modules.Resolved) :=
  [({ specifier := "/colors.less", inlined := true }, ⟨⟨"/colors.less"⟩, {}⟩),
    ({ specifier := "/sizes.less", inlined := true }, ⟨⟨"/sizes.less"⟩, {}⟩)]

/-- In the first pass the imports of the theme are recorded last. -/
theorem passTrail_themeSession : ∃ before work after,
    themeSession.passTrail 4 = before ++ ⟨.recorded ⟨2⟩ themeParts, work⟩ :: after ∧
      (∀ moment ∈ after, (∀ id modules, moment.deed ≠ .recorded id modules) ∧
        ∀ p, ¬ moment.deed.TakesUp p) ∧
      work.state.graph.live.map Asset.identity = [⟨"/main.js"⟩, ⟨"/colors.less"⟩, ⟨"/theme.less"⟩] := by
  have hlast : ((Pass.assembleTrail themeSession.tools themeSession.setup 4 themeSession.opening).drop 46).map
      (fun moment => (moment.deed, moment.work.state.graph.live.map Asset.identity)) =
        [(.recorded ⟨2⟩ themeParts, [⟨"/main.js"⟩, ⟨"/colors.less"⟩, ⟨"/theme.less"⟩]),
          (.taken [], [⟨"/main.js"⟩, ⟨"/colors.less"⟩, ⟨"/theme.less"⟩])] := by
    decide +kernel
  obtain ⟨rest, hpass, hconcludes⟩ := themeSession.passTrail_cases 4
  obtain ⟨recorded, last, hsplit, hrecorded, hlast⟩ := List.map_eq_cons_iff.1 hlast
  obtain ⟨taken, none, rfl, htaken, hnone⟩ := List.map_eq_cons_iff.1 hlast
  obtain rfl := List.map_eq_nil_iff.1 hnone
  obtain ⟨deed, work⟩ := recorded
  obtain ⟨rfl, hidentities⟩ := Prod.mk.inj hrecorded
  rw [← List.take_append_drop 46 (Pass.assembleTrail _ _ _ _), hsplit, List.append_assoc,
    ← List.cons_append] at hpass
  refine ⟨_, work, taken :: rest, hpass, ?_, hidentities⟩
  refine List.forall_mem_cons.2 ⟨?_, fun moment hmem => ?_⟩
  · rw [(Prod.mk.inj htaken).1]
    exact ⟨fun _ _ h => (by cases h), fun _ h => h⟩
  · have hdeed := hconcludes moment hmem
    constructor
    · intro id modules heq
      rw [heq] at hdeed
      exact hdeed
    · intro p htakes
      cases hcase : moment.deed <;> rw [hcase] at hdeed htakes <;> first | exact hdeed | exact htakes

/-- What comes of the first pass, and of a change of the colors after it. -/
theorem plan_themeSession :
    (themeSession.rehearse 4 4).map (fun result => result.1.toOption.isSome) = some true ∧
      ((themeSession.rehearsed 4 4).work.state.graph.get? ⟨2⟩).isSome = true ∧
      ((themeSession.rehearsed 4 4).work.state.graph.get? ⟨1⟩).map Asset.identity = some ⟨"/colors.less"⟩ ∧
      ((themeSession.rehearsed 4 4).queueChange ⟨"/colors.less"⟩).2.work.state.queue = [⟨1⟩] := by
  decide +kernel

/-- The first pass of the session succeeds, and the theme is live after it. -/
theorem bundle?_themeSession : ∃ report,
    themeSession.bundle? 4 = some (.ok report, themeSession.rehearsed 4 4) ∧
      (themeSession.rehearsed 4 4).work.state.graph.IsLive ⟨2⟩ := by
  obtain ⟨hok, hlive, -, -⟩ := plan_themeSession
  obtain ⟨report, hbundle⟩ := exists_report_of_rehearse hok
  exact ⟨report, hbundle, AssetGraph.isLive_iff_isSome.2 hlive⟩

/-- A change of the sizes reaches the theme, and a change of the colors reaches the asset of that name. -/
theorem queued_themeSession :
    let session := themeSession.rehearsed 4 4
    (session.queueChange ⟨"/sizes.less"⟩).1 = true ∧
      ⟨2⟩ ∈ (session.queueChange ⟨"/sizes.less"⟩).2.work.state.queue ∧
      (session.queueChange ⟨"/colors.less"⟩).1 = true ∧
      ⟨1⟩ ∈ (session.queueChange ⟨"/colors.less"⟩).2.work.state.queue := by
  dsimp only
  obtain ⟨report, hbundle, hlive⟩ := bundle?_themeSession
  obtain ⟨before, work, after, htrail, hafter, hidentities⟩ := passTrail_themeSession
  have hnew : themeSession.Trail .anything [] := .new _ _ _ _ _ trivial
  have hpass : (themeSession.rehearsed 4 4).Trail .anything ([] ++ themeSession.passTrail 4) := hnew.pass hbundle
  rw [List.nil_append] at hpass
  obtain ⟨-, -, hcolors, -⟩ := plan_themeSession
  obtain ⟨colors, hcolors, hidentity⟩ := Option.map_eq_some_iff.1 hcolors
  have hown : ∀ other asset, work.state.graph.get? other = some asset →
      (asset.identity == ⟨"/sizes.less"⟩) = true → other = ⟨2⟩ := by
    intro other asset hget hsame
    have hindexed := (hpass.routed.1 ⟨.recorded ⟨2⟩ themeParts, work⟩ (by rw [htrail]; simp)).indexed
    have hmem := List.mem_map_of_mem (f := Asset.identity) (hindexed.mem_live hget)
    rw [hidentities] at hmem
    have hnone : ∀ p ∈ [Path.mk "/main.js", ⟨"/colors.less"⟩, ⟨"/theme.less"⟩],
        (p == ⟨"/sizes.less"⟩) = false := by
      decide
    rw [hnone _ hmem] at hsame
    cases hsame
  obtain ⟨-, hinlined⟩ := hpass.queued_of_change ⟨"/sizes.less"⟩
  obtain ⟨hnamed, -⟩ := hpass.queued_of_change ⟨"/colors.less"⟩
  obtain ⟨haccepted, hqueued⟩ := hinlined before ⟨2⟩ themeParts work after
    ({ specifier := "/sizes.less", inlined := true }, ⟨⟨"/sizes.less"⟩, {}⟩) htrail (by simp [themeParts]) rfl
    (Path.beq_refl _) (fun moment hmem => (hafter moment hmem).2 _) hown hlive
  obtain ⟨haccepted', hqueued'⟩ := hnamed ⟨1⟩ colors hcolors (by rw [hidentity]; exact Path.beq_refl _)
  exact ⟨haccepted, hqueued, haccepted', hqueued'⟩

/-- A change of a file does not reach every asset into which the file was put: the path of a file that is an
asset of its own leads to that asset. -/
theorem exists_change_of_part_elsewhere :
    ¬ ∀ (session session' : Session Unit Unit Sketch) (trail : List (Moment Sketch)) (depth : Nat)
        (report : Report) (before : List (Moment Sketch)) (id : AssetId)
        (modules : List (Dependency × Lookup.Modules.Resolved)) (work : Work Sketch)
        (after : List (Moment Sketch)) (link : Dependency × Lookup.Modules.Resolved),
      session.Trail .anything trail → session.bundle? depth = some (.ok report, session') →
        trail ++ session.passTrail depth = before ++ ⟨.recorded id modules, work⟩ :: after →
          (∀ moment ∈ after, ∀ modules, moment.deed ≠ .recorded id modules) → link ∈ modules →
            link.1.inlined = true → session'.work.state.graph.IsLive id →
              (session'.queueChange link.2.path).1 = true ∧
                id ∈ (session'.queueChange link.2.path).2.work.state.queue := by
  intro hclaim
  obtain ⟨report, hbundle, hlive⟩ := bundle?_themeSession
  obtain ⟨before, work, after, htrail, hafter, -⟩ := passTrail_themeSession
  obtain ⟨-, hqueued⟩ := hclaim themeSession (themeSession.rehearsed 4 4) [] 4 report before ⟨2⟩ themeParts
    work after ({ specifier := "/colors.less", inlined := true }, ⟨⟨"/colors.less"⟩, {}⟩)
    (.new _ _ _ _ _ trivial) hbundle ((List.nil_append _).trans htrail) (fun moment hmem => (hafter moment hmem).1 ⟨2⟩)
    (by simp [themeParts]) rfl hlive
  obtain ⟨-, -, -, hqueue⟩ := plan_themeSession
  dsimp only at hqueued
  rw [hqueue] at hqueued
  exact absurd hqueued (by decide)

end Session

end Build
end ModuleBundler

import ModuleBundler.Proofs.Build.Comparing
import ModuleBundler.Proofs.Build.Restarting

/-!
# Incremental builds

Files are edited, their changes are reported, and passes are run, some of which
fail.  Whenever a pass succeeds, it says the same about bundles and placements as
the first pass of a new session over the same texts, provided that the resolver
knows every module by one name.

Main results:

- Theorem {lit}`Session.Run.awaits`: between passes only assets that were edited are neither fresh nor
  waiting.
- Theorem {lit}`Session.Run.rebuild`: a successful pass reports what a build from scratch reports.
-/

namespace ModuleBundler
namespace Build

variable {κ π σ τ : Type}

/-! ## Edits and reports of changes -/

namespace State.Current

variable {rules : Rules κ τ} {setup : Setup κ π} {texts texts' : Path → τ} {late pending : List AssetId}
  {state state' : State}

/-- Taking note of changes keeps a build current. -/
theorem notices (h : state.Current rules setup texts late pending) (hnotices : state.Notices state') :
    state'.Current rules setup texts late pending := by
  have hgraph := hnotices.graph
  refine ⟨by rw [hgraph]; exact h.indexed, ?_, ?_, ?_⟩
  · intro id asset hget
    rw [hgraph] at hget
    exact h.sourced hget
  · intro id hstart
    rw [hnotices.start] at hstart
    rw [hgraph]
    exact h.entered hstart
  · intro id asset hget
    rw [hgraph] at hget ⊢
    exact (h.stage hget).imp_left (hnotices.queue id)

/-- Assets that wait are no exceptions. -/
theorem wait (h : state.Current rules setup texts late pending)
    (hwaits : ∀ id ∈ late, ∀ asset, state.graph.get? id = some asset → id ∈ state.queue) :
    state.Current rules setup texts [] pending where
  indexed := h.indexed
  sourced := h.sourced
  entered := h.entered
  stage := by
    intro id asset hget
    rcases h.stage hget with hqueue | hlate | hrest
    · exact .inl hqueue
    · exact .inl (hwaits id hlate asset hget)
    · exact .inr (.inr hrest)

/-- After a file was edited, only its asset is another exception. -/
theorem edit (h : state.Current rules setup texts late pending) {p : Path}
    (hothers : ∀ q, (q == p) = false → texts' q = texts q) :
    ∃ late', state.Current rules setup texts' late' pending ∧ ∀ id ∈ late', id ∈ late ∨
      ∃ asset, state.graph.get? id = some asset ∧ (asset.identity == p) = true := by
  refine ⟨late ++ (state.graph.live.filter fun asset => asset.identity == p).map Asset.id,
    ⟨h.indexed, h.sourced, h.entered, fun {id asset} hget => ?_⟩, fun id hid => ?_⟩
  · by_cases hedited : (asset.identity == p) = true
    · have hmem : asset ∈ state.graph.live.filter fun asset => asset.identity == p :=
        List.mem_filter.2 ⟨h.indexed.mem_live hget, hedited⟩
      refine .inr (.inl (List.mem_append_right _ ?_))
      exact List.mem_map.2 ⟨asset, hmem, h.indexed.named hget⟩
    · rcases h.stage hget with hqueue | hmem | hpristine | ⟨unit, hunit⟩
      · exact .inl hqueue
      · exact .inr (.inl (List.mem_append_left _ hmem))
      · exact .inr (.inr (.inl hpristine))
      · refine .inr (.inr (.inr ⟨unit, hunit.clean, ?_, hunit.compiled, hunit.hash, hunit.dependencies,
          hunit.leads⟩))
        rw [hothers asset.identity (by simpa using hedited)]
        exact hunit.translated
  · rcases List.mem_append.1 hid with hlate | hedited
    · exact .inl hlate
    · obtain ⟨asset, hasset, rfl⟩ := List.mem_map.1 hedited
      obtain ⟨hlive, hsame⟩ := List.mem_filter.1 hasset
      exact .inr ⟨asset, (AssetGraph.mem_live_iff h.indexed).1 hlive, hsame⟩

/-- When the change of its file is reported, an asset comes to wait. -/
theorem mem_queue_notify (h : state.Current rules setup texts late pending) {id : AssetId} {asset : Asset}
    {p : Path} (hget : state.graph.get? id = some asset) (hsame : (asset.identity == p) = true) :
    id ∈ (state.notify p).2.queue := by
  refine State.mem_queue_notify ?_
  have howner : state.graph.owner? p = some id := by
    unfold AssetGraph.owner?
    rw [← state.graph.index_get?_congr hsame, h.indexed.found hget]
    simp [hget]
  unfold State.notify
  rw [howner]

end State.Current

theorem Work.state_notify (work : Work σ) (p : Path) : (work.notify p).2.state = (work.state.notify p).2 := by
  have hnone : (work.state.notify p).1 = none → (work.state.notify p).2 = work.state := by
    unfold State.notify
    split
    · exact fun h => by cases h
    · exact fun _ => rfl
  unfold Work.notify
  generalize work.state.notify p = answer at hnone
  obtain ⟨accepted, state⟩ := answer
  cases accepted with
  | none => exact (hnone rfl).symm
  | some id => rfl

namespace Session

theorem world_queueChange (session : Session κ π σ) (p : Path) :
    (session.queueChange p).2.work.world = session.work.world :=
  session.work.world_notify p

/-! ## Runs -/

/-- The runs of a session.  Between passes files are edited and changes are reported in any order; a pass is
run when every path that was edited has been reported, and may succeed or fail.  The lists hold the paths
that were edited since the latest pass, and those that were reported. -/
inductive Run (text : σ → Path → τ) (first : Session κ π σ) :
    List Path → List Path → Session κ π σ → Prop where
  | start : Run text first [] [] first
  | edit {edited reported : List Path} {session : Session κ π σ} {p : Path} {world : σ} :
      Run text first edited reported session →
        (∀ q, (q == p) = false → text world q = text session.work.world q) →
          Run text first (p :: edited) reported { session with work := { session.work with world } }
  | report {edited reported : List Path} {session : Session κ π σ} (p : Path) :
      Run text first edited reported session →
        Run text first edited (p :: reported) (session.queueChange p).2
  | pass {edited reported : List Path} {session session' : Session κ π σ} {depth : Nat}
      {result : Except Failure Report} :
      Run text first edited reported session →
        (∀ p ∈ edited, ∃ q ∈ reported, (p == q) = true) →
          session.bundle? depth = some (result, session') → Run text first [] [] session'

/-- What holds of a session in which some paths were edited and some were reported since the latest pass. -/
structure Awaits (rules : Rules κ τ) (text : σ → Path → τ) (first : Session κ π σ)
    (edited reported : List Path) (session : Session κ π σ) : Prop where
  tools : session.tools = first.tools
  setup : session.setup = first.setup
  orderly : session.work.state.Orderly [] []
  untouched : session.work.state.start = none →
    session.work.state.queue = [] ∧ ∀ id, session.work.state.graph.get? id = none
  /-- An asset that is neither fresh nor waits was edited. -/
  current : ∃ late,
    session.work.state.Current rules first.setup (text session.work.world) late [] ∧
      ∀ id ∈ late, ∀ asset, session.work.state.graph.get? id = some asset →
        ∃ p ∈ edited, (asset.identity == p) = true
  /-- An asset whose change was reported waits. -/
  waits : ∀ {id : AssetId} {asset : Asset} {p : Path}, session.work.state.graph.get? id = some asset →
    p ∈ reported → (asset.identity == p) = true → id ∈ session.work.state.queue

namespace Awaits

variable {rules : Rules κ τ} {text : σ → Path → τ} {first session : Session κ π σ}
  {edited reported : List Path}

/-- When every path that was edited was reported, the session is up to date. -/
theorem upToDate (h : Awaits rules text first edited reported session)
    (hreported : ∀ p ∈ edited, ∃ q ∈ reported, (p == q) = true) :
    session.work.state.UpToDate rules first.setup (text session.work.world) := by
  obtain ⟨late, hcurrent, hlate⟩ := h.current
  refine ⟨hcurrent.wait fun id hid asset hget => ?_, h.orderly, h.untouched⟩
  obtain ⟨p, hp, hsame⟩ := hlate id hid asset hget
  obtain ⟨q, hq, hpq⟩ := hreported p hp
  exact h.waits hget hq (Path.beq_trans hsame hpq)

/-- A session that is up to date awaits nothing. -/
theorem of_upToDate (htools : session.tools = first.tools) (hsetup : session.setup = first.setup)
    (h : session.work.state.UpToDate rules first.setup (text session.work.world)) :
    Awaits rules text first [] [] session where
  tools := htools
  setup := hsetup
  orderly := h.orderly
  untouched := h.untouched
  current := ⟨[], h.current, fun _ h => by cases h⟩
  waits _ h := by cases h

theorem edit (h : Awaits rules text first edited reported session) {p : Path} {world : σ}
    (hothers : ∀ q, (q == p) = false → text world q = text session.work.world q) :
    Awaits rules text first (p :: edited) reported
      { session with work := { session.work with world } } where
  tools := h.tools
  setup := h.setup
  orderly := h.orderly
  untouched := h.untouched
  current := by
    obtain ⟨late, hcurrent, hlate⟩ := h.current
    obtain ⟨late', hcurrent', hlate'⟩ := hcurrent.edit hothers
    refine ⟨late', hcurrent', fun id hid asset hget => ?_⟩
    rcases hlate' id hid with hold | ⟨asset', hget', hsame⟩
    · obtain ⟨q, hq, hsame⟩ := hlate id hold asset hget
      exact ⟨q, List.mem_cons_of_mem _ hq, hsame⟩
    · have heq : asset' = asset := Option.some.inj (hget'.symm.trans hget)
      exact ⟨p, List.mem_cons_self, heq ▸ hsame⟩
  waits := h.waits

theorem report (h : Awaits rules text first edited reported session) (p : Path) :
    Awaits rules text first edited (p :: reported) (session.queueChange p).2 := by
  have hstate : (session.queueChange p).2.work.state = (session.work.state.notify p).2 :=
    session.work.state_notify p
  have hworld := session.world_queueChange p
  have hnotices := session.work.state.notices_notify p
  obtain ⟨late, hcurrent, hlate⟩ := h.current
  refine ⟨h.tools, h.setup, ?_, ?_, ⟨late, ?_, ?_⟩, ?_⟩
  · rw [hstate]
    exact h.orderly.notices hnotices
  · rw [hstate, hnotices.start, hnotices.graph]
    intro hnone
    obtain ⟨hqueue, hempty⟩ := h.untouched hnone
    refine ⟨?_, hempty⟩
    -- no path leads to a live asset
    have howner : session.work.state.graph.owner? p = none := by
      unfold AssetGraph.owner?
      rw [Option.filter_eq_none_iff]
      intro id _
      simp [hempty id]
    unfold State.notify
    rw [howner]
    exact hqueue
  · rw [hstate, hworld]
    exact hcurrent.notices hnotices
  · rw [hstate, hnotices.graph]
    exact hlate
  · rw [hstate, hnotices.graph]
    intro id asset q hget hq hsame
    rcases List.mem_cons.1 hq with rfl | hq
    · exact hcurrent.mem_queue_notify hget hsame
    · exact hnotices.queue id (h.waits hget hq hsame)

end Awaits

/-! ## Passes of a session -/

/-- With steady tools a pass leaves the state and the texts in which it ends to the session. -/
theorem of_bundle? {tools : Toolset κ π σ} {text : σ → Path → τ} {rules : Rules κ τ}
    (hsteady : Steady tools text rules) {session session' : Session κ π σ} (htools : session.tools = tools)
    {depth : Nat} {result : Except Failure Report} (h : session.bundle? depth = some (result, session')) :
    ∃ next, Pass.run tools session.setup depth (session.work.tell .started) = some (result, next) ∧
      session'.work.state = next.state ∧ text session'.work.world = text next.world ∧
        session'.tools = tools ∧ session'.setup = session.setup := by
  have hconclude : ∀ (result : Except Failure Report) (work : Work σ),
      (conclude tools result work).state = work.state ∧
        text (conclude tools result work).world = text work.world := by
    intro result work
    cases result with
    | ok report => exact ⟨rfl, rfl⟩
    | error failure => exact ⟨rfl, hsteady.alert failure work.world⟩
  subst htools
  unfold bundle? at h
  dsimp only at h
  split at h
  · cases h
  · rename_i result' next hrun
    simp only [Option.some.injEq, Prod.mk.injEq] at h
    obtain ⟨rfl, rfl⟩ := h
    obtain ⟨hstate, htext⟩ := hconclude result' next
    refine ⟨next, hrun, ?_⟩
    split
    · exact ⟨hstate, (hsteady.close _).trans htext, rfl, rfl⟩
    · exact ⟨hstate, htext, rfl, rfl⟩

/-- A pass keeps a session up to date, and a report of it is about a layout of fresh assets. -/
theorem Awaits.pass {text : σ → Path → τ} {rules : Rules κ τ} {first session session' : Session κ π σ}
    {edited reported : List Path} (hsteady : Steady first.tools text rules) (hcanonical : rules.Canonical)
    (h : Awaits rules text first edited reported session)
    (hreported : ∀ p ∈ edited, ∃ q ∈ reported, (p == q) = true) {depth : Nat}
    {result : Except Failure Report} (hpass : session.bundle? depth = some (result, session')) :
    Awaits rules text first [] [] session' ∧
      ∀ report, result = .ok report → session'.work.state.queue = [] ∧ ∃ before start,
        session'.work.state.start = some start ∧
          session'.work.state.Current rules first.setup (text session.work.world) [] [] ∧
            Pass.Delivers rules first.setup (text session.work.world) report before start
              session'.work.state.graph := by
  obtain ⟨next, hrun, hstate, htext, htools, hsetup⟩ := of_bundle? hsteady h.tools hpass
  rw [h.setup] at hrun hsetup
  have htold : text (session.work.tell .started).world = text session.work.world := rfl
  obtain ⟨htext', hupToDate, hend⟩ :=
    Pass.run_upToDate hsteady hcanonical htold (h.upToDate hreported) hrun
  rw [hstate]
  refine ⟨.of_upToDate htools hsetup ?_, fun report hok => ?_⟩
  · rw [hstate, htext, htext']
    exact hupToDate
  · obtain ⟨hqueue, before, start, hstart, hdelivers⟩ := hend report hok
    exact ⟨hqueue, before, start, hstart, hupToDate.current, hdelivers⟩

namespace Run

theorem tools {text : σ → Path → τ} {first session : Session κ π σ} {edited reported : List Path}
    (h : Run text first edited reported session) : session.tools = first.tools := by
  induction h with
  | start => rfl
  | edit _ _ ih => exact ih
  | report _ _ ih => exact ih
  | pass _ _ hpass ih => exact (tools_of_bundle? hpass).trans ih

variable {tools : Toolset κ π σ} {text : σ → Path → τ} {rules : Rules κ τ}
  (hsteady : Steady tools text rules) (hcanonical : rules.Canonical) {settings : Settings} {entry : Path}
  {types : AssetTypes κ} {packagers : Packagers π} {world : σ} {edited reported : List Path}
  {session : Session κ π σ}
include hsteady hcanonical

/-- Between passes only assets that were edited are neither fresh nor waiting. -/
theorem awaits
    (h : Run text (Session.new settings entry types packagers tools world) edited reported session) :
    Awaits rules text (Session.new settings entry types packagers tools world) edited reported session := by
  induction h with
  | start => exact .of_upToDate rfl rfl (State.upToDate_empty _ _ _)
  | edit _ hothers ih => exact ih.edit hothers
  | report p _ ih => exact ih.report p
  | pass _ hreported hpass ih => exact (ih.pass hsteady hcanonical hreported hpass).1

/-- A successful pass says about bundles and placements what the first pass of a new session over the same
texts says, which succeeds as well. -/
theorem rebuild
    (h : Run text (Session.new settings entry types packagers tools world) edited reported session)
    (hreported : ∀ p ∈ edited, ∃ q ∈ reported, (p == q) = true) {depth : Nat} {report : Report}
    {session' : Session κ π σ} (hpass : session.bundle? depth = some (.ok report, session'))
    {world' : σ} (hworld : text world' = text session.work.world) {depth' : Nat}
    (hdepth : session'.work.state.graph.live.length < depth') :
    ∃ report' last,
      (Session.new settings entry types packagers tools world').bundle? depth' = some (.ok report', last) ∧
        report'.bundles = report.bundles ∧ report'.placements.Perm report.placements := by
  obtain ⟨-, hend⟩ := (h.awaits hsteady hcanonical).pass hsteady hcanonical hreported hpass
  obtain ⟨hqueue, before, start, hstart, hcurrent, hdelivers⟩ := hend report rfl
  rw [← hworld] at hcurrent hdelivers
  -- the new session loads nothing but modules of the old one
  have htold : text ((Session.new settings entry types packagers tools world').work.tell .started).world =
      text world' := rfl
  obtain ⟨report', next, hrun⟩ :=
    Pass.run_succeeds hsteady hcanonical hcurrent hqueue hstart hdepth htold rfl
  obtain ⟨last, hlast⟩ := bundle?_of_run hrun
  have hclean : Awaits rules text (Session.new settings entry types packagers tools world') [] []
      (Session.new settings entry types packagers tools world') :=
    .of_upToDate rfl rfl (State.upToDate_empty _ _ _)
  obtain ⟨-, hend'⟩ := hclean.pass hsteady hcanonical (fun _ h => by cases h) hlast
  obtain ⟨-, before', start', -, -, hdelivers'⟩ := hend' report' rfl
  exact ⟨report', last, hlast, hdelivers.agree hcanonical hdelivers'⟩

end Run

/-! ## Looking ahead -/

/-- The names of the bundles that a pass is going to lay out, if a few visits are enough for that. -/
def plannedNames (session : Session κ π σ) (depth visits : Nat) : Option (List Path) :=
  match Pass.assemble session.tools session.setup depth (session.work.tell .started) with
  | some (.ok start, work) =>
    let (left, layout) := Layout.steps (Layout.visit session.setup.outDir) visits
      ([Layout.Visit.ofEntry start], ⟨work.state.graph.updateAll Asset.withoutPlace, .empty⟩)
    if left.isEmpty then some (layout.tree.walk.map layout.tree.nameOf) else none
  | _ => none

/-- With steady tools a pass reports on the bundles that were planned. -/
theorem bundle?_of_plannedNames {text : σ → Path → τ} {rules : Rules κ τ} {session : Session κ π σ}
    (hsteady : Steady session.tools text rules) {depth visits : Nat} {names : List Path}
    (h : session.plannedNames depth visits = some names) :
    ∃ report session', session.bundle? depth = some (.ok report, session') ∧
      report.bundles.map BundleInfo.name = names := by
  unfold plannedNames at h
  split at h
  · rename_i start work hassemble
    dsimp only at h
    split at h
    · rename_i hleft
      obtain ⟨packaged, next, hfinish, -⟩ :=
        @Pass.finish_reports κ π σ τ session.tools text rules session.setup hsteady start work
      have hrun : Pass.run session.tools session.setup depth (session.work.tell .started) =
          some (Pass.finish session.tools session.setup start work) := by
        unfold Pass.run
        rw [hassemble]
      rw [hfinish] at hrun
      obtain ⟨session', hbundle⟩ := bundle?_of_run hrun
      refine ⟨_, session', hbundle, ?_⟩
      rw [← Option.some.inj h]
      have hlayout := Layout.ofGraph_of_steps (List.isEmpty_iff.1 hleft)
      unfold State.layout
      rw [hlayout]
      simp [Report.ofTree, Layout.name_infoOf]
    · cases h
  · cases h

/-! ## A project of two files -/

/-- The rules of a project of two files.  The main one imports the other one on demand, with one slash or
with two; the other one cannot be compiled at first.  The resolver answers what it is given. -/
def twoFiles (answer : String → Lookup.Modules.Resolved) : Rules Unit Bool where
  find specifier _ := .ok (answer specifier)
  translate _ p _ text :=
    if p == ⟨"/main.js"⟩ then
      .ok ⟨.empty, "", [{ specifier := if text then "/x.js" else "//x.js", dynamic := true }]⟩
    else if text then .ok ⟨.empty, "", []⟩
    else .error (.compileIn "not yet" p)
  prepared _ := .ok ()

/-- The texts of the project; the world holds whether the main file and the other one were edited. -/
def twoTexts (world : Bool × Bool) (p : Path) : Bool :=
  if p == ⟨"/main.js"⟩ then world.1 else if p == ⟨"/x.js"⟩ then world.2 else false

theorem steady_twoFiles (answer : String → Lookup.Modules.Resolved) :
    Steady (Toolset.ofRules (twoFiles answer) twoTexts) twoTexts (twoFiles answer) := by
  refine steady_ofRules twoTexts fun {_ p _ text unit} hunit dep hdep => ?_
  simp only [twoFiles] at hunit
  split at hunit
  · cases hunit
    rw [List.mem_singleton.1 hdep]
  · split at hunit
    · cases hunit
      cases hdep
    · cases hunit

/-- A session for the project. -/
def twoSession (answer : String → Lookup.Modules.Resolved) (world : Bool × Bool) :
    Session Unit Unit (Bool × Bool) :=
  Session.new (.ofRequest ⟨"/"⟩ false {}) ⟨"/main.js"⟩ (.ofFallback ()) (.ofFallback ())
    (Toolset.ofRules (twoFiles answer) twoTexts) world

/-- The session after its first pass. -/
def failedSession (answer : String → Lookup.Modules.Resolved) : Session Unit Unit (Bool × Bool) :=
  (((twoSession answer (false, false)).bundle? 3).map Prod.snd).getD (twoSession answer (false, false))

/-- The session after both files were edited and the edits were reported. -/
def editedSession (answer : String → Lookup.Modules.Resolved) : Session Unit Unit (Bool × Bool) :=
  let failed := failedSession answer
  let edited := { failed with work := { failed.work with world := (true, true) } }
  ((edited.queueChange ⟨"/x.js"⟩).2.queueChange ⟨"/main.js"⟩).2

theorem run_editedSession {answer : String → Lookup.Modules.Resolved}
    (hfailed : ((twoSession answer (false, false)).bundle? 3).isSome = true) :
    Run twoTexts (twoSession answer (false, false)) [⟨"/main.js"⟩, ⟨"/x.js"⟩] [⟨"/main.js"⟩, ⟨"/x.js"⟩]
      (editedSession answer) := by
  obtain ⟨⟨result, failed⟩, hbundle⟩ := Option.isSome_iff_exists.1 hfailed
  have hsession : failedSession answer = failed := by
    unfold failedSession
    rw [hbundle]
    rfl
  have hpass : Run twoTexts (twoSession answer (false, false)) [] [] failed :=
    Run.start.pass (fun _ h => by cases h) hbundle
  have hother : Run twoTexts (twoSession answer (false, false)) [⟨"/x.js"⟩] []
      { failed with work := { failed.work with world := (failed.work.world.1, true) } } :=
    hpass.edit fun q hq => by simp [twoTexts, hq]
  have hboth : Run twoTexts (twoSession answer (false, false)) [⟨"/main.js"⟩, ⟨"/x.js"⟩] []
      { failed with work := { failed.work with world := (true, true) } } :=
    hother.edit fun q hq => by simp [twoTexts, hq]
  unfold editedSession
  rw [hsession]
  exact (hboth.report _).report _

theorem world_editedSession (answer : String → Lookup.Modules.Resolved) :
    (editedSession answer).work.world = (true, true) := by
  unfold editedSession
  dsimp only
  rw [world_queueChange, world_queueChange]

/-- A resolver that has one name for each of the files. -/
def oneName (specifier : String) : Lookup.Modules.Resolved :=
  ⟨if Path.mk specifier == ⟨"/main.js"⟩ then ⟨"/main.js"⟩ else ⟨"/x.js"⟩, {}⟩

/-- A resolver that calls a file what the specifier calls it. -/
def ownName (specifier : String) : Lookup.Modules.Resolved :=
  ⟨⟨specifier⟩, {}⟩

/-- A resolver that has one name for each of the files, but a package for each specifier. -/
def ownPackage (specifier : String) : Lookup.Modules.Resolved :=
  ⟨(oneName specifier).path,
    { name := some specifier, main := some "x.js", manifest := some ⟨"/package.json"⟩ }⟩

theorem canonical_oneName : (twoFiles oneName).Canonical := by
  intro specifier specifier' importer importer' module module' h h' hsame
  have hne : (Path.mk "/main.js" == ⟨"/x.js"⟩) = false ∧ (Path.mk "/x.js" == ⟨"/main.js"⟩) = false := by
    decide +kernel
  simp only [twoFiles, oneName, Except.ok.injEq] at h h'
  subst h h'
  dsimp only at hsame
  split at hsame <;> split at hsame <;> simp_all

/-- After a pass that has failed, the next one reports what a build from scratch reports. -/
theorem rebuild_twoFiles : ∃ report session' depth' report' last,
    (editedSession oneName).bundle? 3 = some (.ok report, session') ∧
      (twoSession oneName (true, true)).bundle? depth' = some (.ok report', last) ∧
        report'.bundles = report.bundles ∧ report'.placements.Perm report.placements := by
  have hnames : ((editedSession oneName).plannedNames 3 3).isSome = true := by decide
  obtain ⟨names, hnames⟩ := Option.isSome_iff_exists.1 hnames
  obtain ⟨report, session', hbundle, -⟩ := bundle?_of_plannedNames (steady_twoFiles oneName) hnames
  obtain ⟨report', last, hlast, hsame⟩ := Run.rebuild (steady_twoFiles oneName) canonical_oneName
    (run_editedSession (by decide)) (fun p hp => ⟨p, hp, Path.beq_refl p⟩) hbundle
    (congrArg twoTexts (world_editedSession oneName).symm) (Nat.lt_succ_self _)
  exact ⟨report, session', _, report', last, hbundle, hlast, hsame⟩

/-- With the resolver, a successful pass over the edited texts gives the bundles other names than the first
pass of a new session over the same texts. -/
def Misnames (answer : String → Lookup.Modules.Resolved) : Prop :=
  ∃ report session' report' last,
    Steady (Toolset.ofRules (twoFiles answer) twoTexts) twoTexts (twoFiles answer) ∧
      Run twoTexts (twoSession answer (false, false)) [⟨"/main.js"⟩, ⟨"/x.js"⟩]
        [⟨"/main.js"⟩, ⟨"/x.js"⟩] (editedSession answer) ∧
      twoTexts (true, true) = twoTexts (editedSession answer).work.world ∧
      (editedSession answer).bundle? 3 = some (.ok report, session') ∧
      (twoSession answer (true, true)).bundle? 3 = some (.ok report', last) ∧
      report'.bundles.map BundleInfo.name ≠ report.bundles.map BundleInfo.name

theorem misnames_of_plannedNames {answer : String → Lookup.Modules.Resolved} {names names' : List Path}
    (hfailed : ((twoSession answer (false, false)).bundle? 3).isSome = true)
    (hnames : (editedSession answer).plannedNames 3 3 = some names)
    (hnames' : (twoSession answer (true, true)).plannedNames 3 3 = some names') (hne : names' ≠ names) :
    Misnames answer := by
  have hrun := run_editedSession hfailed
  have hsteady : Steady (editedSession answer).tools twoTexts (twoFiles answer) := by
    rw [hrun.tools]
    exact steady_twoFiles answer
  obtain ⟨report, session', hbundle, hreport⟩ := bundle?_of_plannedNames hsteady hnames
  obtain ⟨report', last, hlast, hreport'⟩ := bundle?_of_plannedNames (steady_twoFiles answer) hnames'
  refine ⟨report, session', report', last, steady_twoFiles answer, hrun,
    congrArg twoTexts (world_editedSession answer).symm, hbundle, hlast, fun hsame => hne ?_⟩
  rw [← hreport, ← hreport', hsame]

theorem misnames_ownName : Misnames ownName := by
  have hnames : (editedSession ownName).plannedNames 3 3 =
      some [⟨"/dist/main.js"⟩, ⟨"/dist/c4ac60c326423969.js"⟩] := by decide +kernel
  have hnames' : (twoSession ownName (true, true)).plannedNames 3 3 =
      some [⟨"/dist/main.js"⟩, ⟨"/dist/fe74e6b4e5ac0db2.js"⟩] := by decide +kernel
  exact misnames_of_plannedNames (by decide) hnames hnames' (by decide)

theorem misnames_ownPackage : Misnames ownPackage := by
  have hnames : (editedSession ownPackage).plannedNames 3 3 =
      some [⟨"/dist/main.js"⟩, ⟨"/dist/--x.js.js"⟩] := by decide +kernel
  have hnames' : (twoSession ownPackage (true, true)).plannedNames 3 3 =
      some [⟨"/dist/main.js"⟩, ⟨"/dist/-x.js.js"⟩] := by decide +kernel
  exact misnames_of_plannedNames (by decide) hnames hnames' (by decide)

/-- A resolver that knows a module by two names, or in two packages, is not enough: an asset keeps the name
and the package under which it was found first. -/
theorem misnames_of_two_names : Misnames ownName ∧ Misnames ownPackage :=
  ⟨misnames_ownName, misnames_ownPackage⟩

end Session
end Build
end ModuleBundler

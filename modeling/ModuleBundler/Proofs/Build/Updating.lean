import Mathlib.Data.List.Basic
import ModuleBundler.Build.Sketch
import ModuleBundler.Proofs.Build.Intake
import ModuleBundler.Proofs.Build.Rehearsal

/-!
# Live updates

When a pass after the first one has loaded all that waits, it sends a live update.
The update holds the assets that the pass has taken off the queue and, before them,
those that have no home in any bundle yet.  Whatever the pass has compiled is one or
the other.

A pass that fails before sends no update, and what it has taken off the queue is not
remembered.  An asset that it has compiled with success is therefore not sent to
pages, neither by that pass nor by the next one.

Main results:

- Theorem {lit}`Pass.updates_updateOf`: what is in an update.
- Theorem {lit}`Session.Trail.updates_of_sent`: a live update holds what was taken off the queue in its
  pass and what has no home, each once, and so it holds whatever the pass has compiled.
- Theorem {lit}`Session.exists_update_without`: it does not hold what a failed pass has compiled.
-/

namespace ModuleBundler

/-- An element of two lists in a row lies in one of them. -/
theorem append_eq_append_cons {α : Type} {first second before after : List α} {a : α}
    (h : first ++ second = before ++ a :: after) :
    (∃ rest, first = before ++ a :: rest) ∨
      ∃ rest, before = first ++ rest ∧ second = rest ++ a :: after := by
  rcases List.append_eq_append_iff.1 h with ⟨rest, hbefore, hsecond⟩ | ⟨rest, hfirst, hafter⟩
  · exact .inr ⟨rest, hbefore, hsecond⟩
  · rcases List.cons_eq_append_iff.1 hafter with ⟨rfl, hsecond⟩ | ⟨rest, rfl, -⟩
    · exact .inr ⟨[], by rw [hfirst, List.append_nil, List.append_nil], hsecond⟩
    · exact .inl ⟨rest, hfirst⟩

namespace AssetGraph

/-! ## Updated assets -/

variable {graph : AssetGraph}

/-- No asset is an orphan twice. -/
theorem nodup_orphans (h : graph.Indexed) : graph.orphans.Nodup := by
  refine List.pairwise_map.2 (((pairwise_live h).imp_of_mem fun {a b} ha hb hne hsame => ?_).filter _)
  have hget := (mem_live_iff h).1 ha
  rw [hsame, (mem_live_iff h).1 hb] at hget
  exact hne (congrArg Asset.identity (Option.some.inj hget)).symm

theorem updated?_eq_some {id : AssetId} {update : LiveUpdate.UpdatedAsset}
    (h : graph.updated? id = some update) :
    ∃ asset, graph.get? id = some asset ∧ update.id = asset.identity := by
  obtain ⟨asset, hget, rfl⟩ := Option.map_eq_some_iff.1 h
  exact ⟨asset, hget, rfl⟩

/-- Updated assets with the same identity are the same asset. -/
theorem eq_of_updated? (h : graph.Indexed) {a b : AssetId} {updateA updateB : LiveUpdate.UpdatedAsset}
    (ha : graph.updated? a = some updateA) (hb : graph.updated? b = some updateB)
    (hsame : (updateA.id == updateB.id) = true) : a = b := by
  obtain ⟨assetA, hgetA, hidA⟩ := updated?_eq_some ha
  obtain ⟨assetB, hgetB, hidB⟩ := updated?_eq_some hb
  rw [hidA, hidB] at hsame
  exact h.eq_of_same hgetA hgetB hsame

end AssetGraph

namespace Build

variable {κ π σ : Type}

/-! ## Sending updates -/

/-- The assets of a live update that is sent when the given assets were loaded. -/
def Pass.updateOf (loaded : List AssetId) (graph : AssetGraph) : List LiveUpdate.UpdatedAsset :=
  (loaded.foldl (fun changed id => includeLast id changed) graph.orphans).filterMap graph.updated?

/-- What a live update is after all that has happened in a pass. -/
structure Updates (pass : List (Moment σ)) (graph : AssetGraph)
    (assets : List LiveUpdate.UpdatedAsset) : Prop where
  /-- No asset is in it twice. -/
  distinct : assets.Pairwise fun first second => (first.id == second.id) = false
  /-- Everything in it is a live asset as it is now. -/
  sound : ∀ update ∈ assets, ∃ id, graph.updated? id = some update
  /-- A live asset is in it if the pass has taken it off the queue or it has no home, and only then. -/
  mem_iff : ∀ {id : AssetId} {update : LiveUpdate.UpdatedAsset}, graph.updated? id = some update →
    (update ∈ assets ↔ (∃ ids taken, ⟨.taken ids, taken⟩ ∈ pass ∧ id ∈ ids) ∨
      ∃ asset, graph.get? id = some asset ∧ asset.home = none)
  /-- Whatever the pass has compiled and is live is in it. -/
  compiled : ∀ {id : AssetId} {unit : CompiledUnit} {kept : Work σ} {update : LiveUpdate.UpdatedAsset},
    ⟨.kept id unit, kept⟩ ∈ pass → graph.updated? id = some update → update ∈ assets

namespace Pass

/-- The update after a pass in which what was loaded is what was taken off the queue. -/
theorem updates_updateOf {pass : List (Moment σ)} {graph : AssetGraph} {loaded : List AssetId}
    (hindexed : graph.Indexed) (hproper : Intake.Proper {} pass)
    (hreserved : Reserved (Intake.after {} pass) graph)
    (hloaded : ∀ id, id ∈ loaded ↔ id ∈ (Intake.after {} pass).taken) :
    Updates pass graph (updateOf loaded graph) := by
  have hmem : ∀ {id : AssetId} {update : LiveUpdate.UpdatedAsset}, graph.updated? id = some update →
      (update ∈ updateOf loaded graph ↔ id ∈ (Intake.after {} pass).taken ∨ id ∈ graph.orphans) := by
    intro id update hupdate
    rw [← hloaded id, or_comm, ← mem_foldl_includeLast]
    constructor
    · intro hmem
      obtain ⟨other, hother, hupdate'⟩ := List.mem_filterMap.1 hmem
      rwa [AssetGraph.eq_of_updated? hindexed hupdate hupdate' (Path.beq_refl _)]
    · exact fun hmem => List.mem_filterMap.2 ⟨id, hmem, hupdate⟩
  refine ⟨?_, ?_, ?_, ?_⟩
  · refine List.pairwise_filterMap.2 ((nodup_foldl_includeLast loaded
      (AssetGraph.nodup_orphans hindexed)).imp fun {a b} hne first hfirst second hsecond => ?_)
    by_contra hsame
    exact hne (AssetGraph.eq_of_updated? hindexed hfirst hsecond (by simpa using hsame))
  · intro update hupdate
    obtain ⟨id, -, hid⟩ := List.mem_filterMap.1 hupdate
    exact ⟨id, hid⟩
  · intro id update hupdate
    rw [hmem hupdate, Intake.mem_taken_after, AssetGraph.mem_orphans_iff hindexed]
    simp
  · intro id unit kept update hkept hupdate
    obtain ⟨asset, hget, -⟩ := AssetGraph.updated?_eq_some hupdate
    refine (hmem hupdate).2 ((hreserved.claimed hget (hproper.mem_claimed hkept)).imp_right fun hhome => ?_)
    exact (AssetGraph.mem_orphans_iff hindexed).2 ⟨asset, hget, hhome⟩

end Pass

/-! ## Sessions -/

namespace Session

variable {session : Session κ π σ} {depth : Nat}

/-- A pass that has loaded all that waits sends a live update, and only one. -/
theorem passTrail_of_drain (hstart : session.opening.state.start.isNone = false) {loaded : List AssetId}
    {drained : Work σ} (hdrain : Pass.drain session.tools session.setup.types false depth depth []
      session.opening = some (.ok loaded, drained)) :
    ∃ work after, session.passTrail depth =
        (⟨.begun false, session.opening⟩ ::
          Pass.drainTrail session.tools session.setup.types false depth depth session.opening) ++
          ⟨.sent (Pass.updateOf loaded drained.state.graph), work⟩ :: after ∧
      work.state = drained.state ∧ ∀ moment ∈ after, moment.deed.Concludes := by
  obtain ⟨rest, heq, hrest⟩ := session.passTrail_cases depth
  unfold Pass.assembleTrail Pass.gatherTrail at heq
  rw [hstart, if_neg Bool.false_ne_true, hdrain] at heq
  dsimp only at heq
  rw [if_neg Bool.false_ne_true, List.append_assoc] at heq
  refine ⟨{ drained with
    world := session.tools.update (Pass.updateOf loaded drained.state.graph) drained.world }, _, heq, rfl,
    List.forall_mem_append.2 ⟨?_, hrest⟩⟩
  exact Work.forall_listenTrail Deed.ambient_concludes session.tools _

/-- A pass that sends a live update is not the first one and has loaded all that waits. -/
theorem drain_of_sent {moment : Moment σ} (hmem : moment ∈ session.passTrail depth)
    {assets : List LiveUpdate.UpdatedAsset} (hdeed : moment.deed = .sent assets) :
    session.opening.state.start.isNone = false ∧ ∃ loaded drained, Pass.drain session.tools
      session.setup.types false depth depth [] session.opening = some (.ok loaded, drained) := by
  have hnone : ¬ (Deed.sent assets).Loads := fun h => h
  have hgather : ∀ {first : Bool} {work : Work σ},
      moment ∈ Pass.gatherTrail session.tools session.setup.types first depth work → first = false ∧
        ∃ loaded drained, Pass.drain session.tools session.setup.types first depth depth [] work =
          some (.ok loaded, drained) := by
    intro first work hmem
    rcases List.mem_append.1 hmem with hmem | hmem
    · exact (hnone (hdeed ▸ Pass.loads_drainTrail _ _ first depth depth work moment hmem)).elim
    · split at hmem
      · rename_i loaded drained hdrain
        split at hmem
        · cases hmem
        · rename_i hfirst
          exact ⟨Bool.eq_false_iff.2 hfirst, loaded, drained, hdrain⟩
      · cases hmem
  obtain ⟨rest, heq, hrest⟩ := session.passTrail_cases depth
  rw [heq] at hmem
  rcases List.mem_cons.1 hmem with rfl | hmem
  · cases hdeed
  · rcases List.mem_append.1 hmem with hmem | hmem
    · unfold Pass.assembleTrail at hmem
      split at hmem
      · rcases List.mem_append.1 hmem with hmem | hmem
        · have henters := Pass.enters_enterTrail session.tools session.setup session.opening moment hmem
          rw [hdeed] at henters
          exact henters.elim
        · split at hmem
          · cases hmem
          · cases (hgather hmem).1
      · rename_i hstart
        exact ⟨Bool.eq_false_iff.2 hstart, (hgather hmem).2⟩
    · have hconcludes := hrest moment hmem
      rw [hdeed] at hconcludes
      exact hconcludes.elim

/-- What a live update is that a pass sends. -/
theorem updates_passTrail (horderly : session.work.state.Orderly [] []) {before after : List (Moment σ)}
    {assets : List LiveUpdate.UpdatedAsset} {work : Work σ}
    (heq : session.passTrail depth = before ++ ⟨.sent assets, work⟩ :: after) :
    ∃ pass, before = ⟨.begun false, session.opening⟩ :: pass ∧ (∀ moment ∈ pass, moment.deed.Loads) ∧
      Updates pass work.state.graph assets := by
  have hmem : ⟨.sent assets, work⟩ ∈ session.passTrail depth :=
    heq ▸ List.mem_append_right _ List.mem_cons_self
  obtain ⟨hstart, loaded, drained, hdrain⟩ := drain_of_sent hmem rfl
  obtain ⟨sent, rest, hpass, hstate, hrest⟩ := passTrail_of_drain hstart hdrain
  have hloads := Pass.loads_drainTrail session.tools session.setup.types false depth depth session.opening
  rw [hpass, List.append_cons_inj_of_notMem] at heq
  · obtain ⟨rfl, hsent, -⟩ := heq
    obtain ⟨hassets, rfl⟩ := Moment.mk.inj hsent
    obtain rfl := Deed.sent.inj hassets
    have hopening : session.opening.state.Orderly [] [] := horderly
    obtain ⟨hproper, hloaded⟩ := Pass.proper_drain {} (fun _ => Iff.rfl) hdrain
    refine ⟨_, rfl, hloads, ?_⟩
    rw [hstate]
    exact Pass.updates_updateOf (Pass.drain_orderly hopening hdrain).1.indexed hproper
      (Pass.reserved_drain hopening hdrain hproper) (hloaded loaded rfl)
  · intro hmem
    rcases List.mem_cons.1 hmem with heq | hmem
    · cases heq
    · exact hloads _ hmem
  · exact fun hmem => hrest _ hmem

/-- A moment at which an update is sent lies in a pass of the session. -/
theorem Trail.exists_pass {outside : Outside σ} {trail before after : List (Moment σ)} {moment : Moment σ}
    (h : session.Trail outside trail) (heq : trail = before ++ moment :: after)
    {assets : List LiveUpdate.UpdatedAsset} (hdeed : moment.deed = .sent assets) :
    ∃ (past : Session κ π σ) (depth : Nat) (earlier pass rest : List (Moment σ)),
      past.Trail outside earlier ∧ before = earlier ++ pass ∧
        past.passTrail depth = pass ++ moment :: rest := by
  -- between two passes nothing is sent
  have hsingle : ∀ {trail before after : List (Moment σ)} {other : Moment σ},
      (∀ others, other.deed ≠ .sent others) → trail ++ [other] = before ++ moment :: after →
        ∃ rest, trail = before ++ moment :: rest := by
    intro trail before after other hother heq
    rcases append_eq_append_cons heq with hrest | ⟨rest, -, hsplit⟩
    · exact hrest
    · have hmem : moment ∈ [other] := hsplit ▸ List.mem_append_right _ List.mem_cons_self
      exact (hother assets (List.mem_singleton.1 hmem ▸ hdeed)).elim
  induction h generalizing before after with
  | new => simp at heq
  | addType _ _ ih => exact ih heq
  | addPackager _ _ ih => exact ih heq
  | edit _ _ ih =>
    obtain ⟨rest, hrest⟩ := hsingle (fun _ h => by cases h) heq
    exact ih hrest
  | change p _ ih =>
    obtain ⟨rest, hrest⟩ := hsingle (fun _ h => by cases h) heq
    exact ih hrest
  | @pass past _ _ depth _ htrail _ ih =>
    rcases append_eq_append_cons heq with ⟨rest, hrest⟩ | ⟨pass, hbefore, hpass⟩
    · exact ih hrest
    · exact ⟨past, depth, _, pass, after, htrail, hbefore, hpass⟩
  | stop _ _ ih =>
    obtain ⟨rest, hrest⟩ := hsingle (fun _ h => by cases h) heq
    exact ih hrest

/-- A live update holds what its pass has taken off the queue and what has no home, each once, and nothing
else; whatever the pass has compiled is in it. -/
theorem Trail.updates_of_sent {outside : Outside σ} {before after : List (Moment σ)}
    {assets : List LiveUpdate.UpdatedAsset} {work : Work σ}
    (h : session.Trail outside (before ++ ⟨.sent assets, work⟩ :: after)) :
    ∃ earlier begun pass, before = earlier ++ ⟨.begun false, begun⟩ :: pass ∧
      (∀ moment ∈ pass, moment.deed.Loads) ∧ Updates pass work.state.graph assets := by
  obtain ⟨past, depth, earlier, passed, rest, hpast, rfl, heq⟩ := h.exists_pass rfl rfl
  obtain ⟨pass, rfl, hloads, hupdates⟩ := updates_passTrail hpast.history.orderly heq
  exact ⟨earlier, past.opening, pass, rfl, hloads, hupdates⟩

end Session

/-! ## An update after a failed pass -/

/-- Whether a live update was sent. -/
def Deed.isSent : Deed → Bool
  | .sent _ => true
  | _ => false

theorem Deed.Loads.isSent {deed : Deed} (h : deed.Loads) : deed.isSent = false := by
  cases deed <;> first | rfl | exact h.elim

theorem Deed.Alters.isSent {deed : Deed} (h : deed.Alters) : deed.isSent = false := by
  cases deed <;> first | rfl | exact h.elim

/-- Whether an asset was compiled with success: its output was kept, its imports were recorded, and it was
not given back. -/
structure Recompiled (id : AssetId) (trail : List (Moment σ)) : Prop where
  kept : ∃ unit, .kept id unit ∈ trail.map Moment.deed
  recorded : ∃ modules, .recorded id modules ∈ trail.map Moment.deed
  remained : .returned id ∉ trail.map Moment.deed

theorem Recompiled.append {id : AssetId} {trail more : List (Moment σ)} (h : Recompiled id trail)
    (hmore : .returned id ∉ more.map Moment.deed) : Recompiled id (trail ++ more) := by
  obtain ⟨⟨unit, hkept⟩, ⟨modules, hrecorded⟩, hremained⟩ := h
  have hmap : (trail ++ more).map Moment.deed = trail.map Moment.deed ++ more.map Moment.deed :=
    List.map_append
  refine ⟨⟨unit, ?_⟩, ⟨modules, ?_⟩, ?_⟩
  · exact hmap ▸ List.mem_append_left _ hkept
  · exact hmap ▸ List.mem_append_left _ hrecorded
  · exact fun hmem => (List.mem_append.1 (hmap ▸ hmem)).elim hremained hmore

namespace Session

/-- The files of a project with two imports, in some version; the second import may have a fault. -/
def pairFiles (version : String) (fault : Option String) : List (Path × Option SketchFile) :=
  [(⟨"/main.js"⟩, some
      { content := "main", hash := some "main"
        dependencies := [{ specifier := "/a.js" }, { specifier := "/b.js" }] }),
    (⟨"/a.js"⟩, some { content := version, hash := some version }),
    (⟨"/b.js"⟩, some { content := version, hash := some version, fault })]

/-- A session for the project, with pages that receive updates. -/
def pairSession : Session Unit Unit Sketch :=
  Session.new (.ofRequest ⟨"/"⟩ false {}) ⟨"/main.js"⟩ (.ofFallback ()) (.ofFallback ())
    ((Sketch.edit { sends := true } (pairFiles "old" none)).tools)
    (Sketch.edit { sends := true } (pairFiles "old" none))

/-- The session with another version of both imports, the second one with a fault. -/
def faultySession : Session Unit Unit Sketch :=
  let session := pairSession.rehearsed 4 3
  session.altered (session.work.world.edit (pairFiles "new" (some "broken"))) [⟨"/a.js"⟩, ⟨"/b.js"⟩]

/-- After a pass has failed, the session in which the second import is mended. -/
def mendedSession : Session Unit Unit Sketch :=
  let session := faultySession.rehearsed 4 3
  session.altered (session.work.world.edit (pairFiles "new" none)) [⟨"/b.js"⟩]

/-- What is done in the pass that fails: the first import is compiled with success, and no update is sent. -/
theorem plan_faultySession :
    (pairSession.rehearse 4 3).isSome = true ∧
      faultySession.opening.state.start.isNone = false ∧ (faultySession.rehearse 4 3).isSome = true ∧
      .kept ⟨1⟩ ⟨.single "js" "new", "new", []⟩ ∈ (faultySession.passTrail 4).map Moment.deed ∧
      .recorded ⟨1⟩ [] ∈ (faultySession.passTrail 4).map Moment.deed ∧
      .returned ⟨1⟩ ∉ (faultySession.passTrail 4).map Moment.deed ∧
      ((faultySession.passTrail 4).map Moment.deed).any Deed.isSent = false := by
  decide +kernel

theorem trail_mendedSession : ∃ earlier failed more,
    mendedSession.Trail .anything (earlier ++ ⟨.begun false, faultySession.opening⟩ :: (failed ++ more)) ∧
      Recompiled ⟨1⟩ failed ∧ (∀ moment ∈ failed, moment.deed.isSent = false) ∧
      ∀ moment ∈ more, moment.deed.Alters := by
  obtain ⟨hfirst, hlater, hsecond, hkept, hrecorded, hremained, hnone⟩ := plan_faultySession
  have hnew : pairSession.Trail .anything [] := .new _ _ _ _ _ trivial
  obtain ⟨changes, hchanges, -⟩ := (hnew.rehearsed hfirst).altered trivial [⟨"/a.js"⟩, ⟨"/b.js"⟩]
  have hfaulty : faultySession.Trail .anything _ := hchanges
  obtain ⟨more, hmore, halters⟩ := (hfaulty.rehearsed hsecond).altered trivial [⟨"/b.js"⟩]
  have hmended : mendedSession.Trail .anything _ := hmore
  obtain ⟨rest, hfailed, -⟩ := faultySession.passTrail_cases 4
  rw [hlater] at hfailed
  rw [hfailed] at hkept hrecorded hremained hnone hmended
  rw [List.append_assoc _ _ more, List.cons_append] at hmended
  have hkept := (List.mem_cons.1 hkept).resolve_left fun h => by cases h
  have hrecorded := (List.mem_cons.1 hrecorded).resolve_left fun h => by cases h
  refine ⟨_, _, more, hmended,
    ⟨⟨_, hkept⟩, ⟨_, hrecorded⟩, fun hmem => hremained (List.mem_cons_of_mem _ hmem)⟩, ?_, halters⟩
  intro moment hmem
  exact Bool.eq_false_iff.2 (List.any_eq_false.1 hnone moment.deed
    (List.mem_map_of_mem (List.mem_cons_of_mem _ hmem)))

/-- Whether an update after the given assets were loaded holds the second import, but not the first one. -/
def lacksFirst (loaded : List AssetId) (graph : AssetGraph) : Bool :=
  (graph.updated? ⟨1⟩).any (fun update => !(Pass.updateOf loaded graph).contains update) &&
    (graph.updated? ⟨2⟩).any fun update => (Pass.updateOf loaded graph).contains update

/-- What is done in the pass after it: the first import is not touched, and the update does not hold it. -/
theorem plan_mendedSession :
    mendedSession.opening.state.start.isNone = false ∧ (mendedSession.rehearse 4 3).isSome = true ∧
      .returned ⟨1⟩ ∉ (Pass.drainTrail mendedSession.tools mendedSession.setup.types false 4 4
        mendedSession.opening).map Moment.deed ∧
      (Pass.drain mendedSession.tools mendedSession.setup.types false 4 4 []
        mendedSession.opening).any (fun result => result.1.toOption.any fun loaded =>
          lacksFirst loaded result.2.state.graph) = true := by
  decide +kernel

/-- A pass compiles the first import with success before it fails.  The next update, which the following pass
sends, holds the second import, but not the first one. -/
theorem sent_mendedSession : ∃ earlier between after begun assets work first second,
    (mendedSession.rehearsed 4 3).Trail .anything
        (earlier ++ ⟨.begun false, begun⟩ :: (between ++ ⟨.sent assets, work⟩ :: after)) ∧
      Recompiled ⟨1⟩ between ∧ (∀ moment ∈ between, moment.deed.isSent = false) ∧
      work.state.graph.updated? ⟨1⟩ = some first ∧ first ∉ assets ∧
      work.state.graph.updated? ⟨2⟩ = some second ∧ second ∈ assets := by
  obtain ⟨earlier, failed, more, hmended, hrecompiled, hfailed, hmore⟩ := trail_mendedSession
  obtain ⟨hlater, hthird, hremained, hdrain⟩ := plan_mendedSession
  obtain ⟨⟨result, drained⟩, hdrained, hresult⟩ := (Option.any_eq_true _ _).1 hdrain
  obtain ⟨loaded, hok, hlacks⟩ := (Option.any_eq_true _ _).1 hresult
  cases result with
  | error failure => cases hok
  | ok found =>
    obtain rfl := Option.some.inj hok
    obtain ⟨work, after, hpass, hstate, -⟩ := passTrail_of_drain hlater hdrained
    have hloads := Pass.loads_drainTrail mendedSession.tools mendedSession.setup.types false 4 4
      mendedSession.opening
    generalize Pass.drainTrail mendedSession.tools mendedSession.setup.types false 4 4
      mendedSession.opening = loading at hpass hremained hloads
    have htrail := hmended.rehearsed hthird
    rw [hpass, List.append_assoc, List.cons_append, ← List.append_assoc _ (_ :: loading)] at htrail
    obtain ⟨hfirst, hsecond⟩ := Bool.and_eq_true_iff.1 hlacks
    obtain ⟨first, hfirst, hlacking⟩ := (Option.any_eq_true _ _).1 hfirst
    obtain ⟨second, hsecond, hholding⟩ := (Option.any_eq_true _ _).1 hsecond
    rw [← hstate] at hfirst hsecond
    refine ⟨earlier, _, after, _, _, work, first, second, htrail, ?_, ?_, hfirst, ?_, hsecond, ?_⟩
    · refine (hrecompiled.append fun hmem => ?_).append fun hmem => ?_
      · obtain ⟨moment, hmoment, hdeed⟩ := List.mem_map.1 hmem
        have halters := hmore moment hmoment
        rw [hdeed] at halters
        exact halters
      · exact hremained ((List.mem_cons.1 hmem).resolve_left fun h => by cases h)
    · refine List.forall_mem_append.2 ⟨List.forall_mem_append.2 ⟨hfailed, ?_⟩, List.forall_mem_cons.2 ⟨rfl, ?_⟩⟩
      · exact fun moment hmem => (hmore moment hmem).isSent
      · exact fun moment hmem => (hloads moment hmem).isSent
    · simpa using hlacking
    · simpa using hholding

/-- The update after the failed pass holds what the third pass has taken off the queue: only the second import
was. -/
theorem updates_mendedSession : ∃ earlier pass after begun assets work first second,
    (mendedSession.rehearsed 4 3).Trail .anything
        ((earlier ++ ⟨.begun false, begun⟩ :: pass) ++ ⟨.sent assets, work⟩ :: after) ∧
      Updates pass work.state.graph assets ∧
      work.state.graph.updated? ⟨1⟩ = some first ∧ first ∉ assets ∧
      work.state.graph.updated? ⟨2⟩ = some second ∧ second ∈ assets := by
  obtain ⟨earlier, between, after, begun, assets, work, first, second, htrail, -, -, hfound⟩ :=
    sent_mendedSession
  rw [← List.cons_append, ← List.append_assoc] at htrail
  obtain ⟨earlier, begun, pass, heq, -, hupdates⟩ := htrail.updates_of_sent
  rw [heq] at htrail
  exact ⟨earlier, pass, after, begun, assets, work, first, second, htrail, hupdates, hfound⟩

/-- A live update need not hold an asset that was compiled with success by a later pass since the update before:
if that pass has failed, the asset is left out. -/
theorem exists_update_without :
    ¬ ∀ (session : Session Unit Unit Sketch) (earlier between after : List (Moment Sketch))
        (begun work : Work Sketch) (assets : List LiveUpdate.UpdatedAsset) (id : AssetId)
        (update : LiveUpdate.UpdatedAsset),
      session.Trail .anything
          (earlier ++ ⟨.begun false, begun⟩ :: (between ++ ⟨.sent assets, work⟩ :: after)) →
        (∀ moment ∈ between, moment.deed.isSent = false) → Recompiled id between →
          work.state.graph.updated? id = some update → update ∈ assets := by
  intro hclaim
  obtain ⟨earlier, between, after, begun, assets, work, first, second, htrail, hrecompiled, hnone, hfirst,
    hlacking, -⟩ := sent_mendedSession
  exact hlacking (hclaim _ earlier between after begun work assets ⟨1⟩ first htrail hnone hrecompiled hfirst)

end Session
end Build
end ModuleBundler

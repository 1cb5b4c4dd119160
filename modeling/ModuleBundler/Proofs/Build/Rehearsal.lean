import ModuleBundler.Proofs.Build.Trail
import ModuleBundler.Proofs.Bundle.Placement

/-!
# Passes that are tried out

A layout goes on until no asset is left to visit.  If a few visits are known to be
enough, a whole pass can be computed: it is rehearsed with that many visits.  What a
rehearsal leads to is what the pass leads to.

Main results:

- Theorem {lit}`Session.bundle?_of_rehearse`: a pass ends as it was rehearsed.
- Theorem {lit}`Session.Trail.rehearsed`: a session goes on as it was rehearsed.
- Theorem {lit}`Session.Trail.altered`: between two passes it goes on in another world.
-/

namespace ModuleBundler
namespace Build

variable {κ π σ : Type}

namespace Pass

/-- What a pass does with the layout of its bundles: it writes those that have changed and reports on all
of them. -/
def deliver (tools : Toolset κ π σ) (setup : Setup κ π) (laid : BundleTree × Work σ) :
    Except Failure Report × Work σ :=
  let plan := Packaging.plan laid.1 laid.2.state.graph laid.2.state.fingerprints
  match write tools setup.packagers plan.changed laid.2 with
  | (.error failure, work) => (.error failure, work)
  | (.ok _, work) =>
    let work := { work with state := { work.state with fingerprints := some plan.hashes } }
    let work := unload tools work
    (.ok (Report.ofTree laid.1 work.state.graph (plan.changed.map PackagedBundle.name)), work)

/-- Lay all assets out in bundles, provided that so many visits are enough. -/
def layOutWithin (visits : Nat) (outDir : Path) (start : AssetId) (work : Work σ) :
    Option (BundleTree × Work σ) :=
  let (left, layout) := Layout.steps (Layout.visit outDir) visits
    ([Layout.Visit.ofEntry start], ⟨work.state.graph.updateAll Asset.withoutPlace, .empty⟩)
  if left.isEmpty then
    some (layout.tree, { work with state := { work.state with graph := layout.graph } })
  else none

theorem layOut_of_within {visits : Nat} {outDir : Path} {start : AssetId} {work : Work σ}
    {laid : BundleTree × Work σ} (h : layOutWithin visits outDir start work = some laid) :
    layOut outDir start work = laid := by
  unfold layOutWithin at h
  dsimp only at h
  split at h
  · rename_i hleft
    rw [← Option.some.inj h]
    unfold layOut
    rw [Layout.ofGraph_of_steps (List.isEmpty_iff.1 hleft)]
  · cases h

/-- A pass whose layout takes no more than so many visits. -/
def rehearse (tools : Toolset κ π σ) (setup : Setup κ π) (depth visits : Nat) (work : Work σ) :
    Option (Except Failure Report × Work σ) :=
  match assemble tools setup depth work with
  | none => none
  | some (.error failure, work) => some (.error failure, work)
  | some (.ok start, work) => (layOutWithin visits setup.outDir start work).map (deliver tools setup)

theorem run_of_rehearse {tools : Toolset κ π σ} {setup : Setup κ π} {depth visits : Nat} {work : Work σ}
    {result : Except Failure Report × Work σ} (h : rehearse tools setup depth visits work = some result) :
    run tools setup depth work = some result := by
  unfold rehearse at h
  unfold run
  cases hassemble : assemble tools setup depth work with
  | none =>
    rw [hassemble] at h
    cases h
  | some outcome =>
    obtain ⟨ended, next⟩ := outcome
    rw [hassemble] at h
    cases ended with
    | error failure => exact h
    | ok start =>
      obtain ⟨laid, hlaid, rfl⟩ := Option.map_eq_some_iff.1 h
      dsimp only
      rw [← layOut_of_within hlaid]
      rfl

end Pass

namespace Session

/-- A pass of a session whose layout takes no more than so many visits. -/
def rehearse (session : Session κ π σ) (depth visits : Nat) :
    Option (Except Failure Report × Session κ π σ) :=
  (Pass.rehearse session.tools session.setup depth visits (session.work.tell .started)).map
    fun (result, work) =>
      let next : Session κ π σ :=
        { session with
          started := true
          work := conclude session.tools result work
          errored := match result with
            | .ok _ => false
            | .error _ => true }
      (result, if session.closesAfterPass && !session.tools.watches then next.stop else next)

/-- A pass ends as it was rehearsed. -/
theorem bundle?_of_rehearse {session : Session κ π σ} {depth visits : Nat}
    {result : Except Failure Report × Session κ π σ} (h : session.rehearse depth visits = some result) :
    session.bundle? depth = some result := by
  obtain ⟨⟨ended, work⟩, hrun, rfl⟩ := Option.map_eq_some_iff.1 h
  unfold bundle?
  dsimp only
  rw [show Pass.run session.start.tools session.start.setup depth (session.start.work.tell .started) =
    some (ended, work) from Pass.run_of_rehearse hrun]
  rfl

/-- The session after a pass that was rehearsed. -/
def rehearsed (session : Session κ π σ) (depth visits : Nat) : Session κ π σ :=
  ((session.rehearse depth visits).map Prod.snd).getD session

theorem bundle?_rehearsed {session : Session κ π σ} {depth visits : Nat}
    (h : (session.rehearse depth visits).isSome = true) :
    ∃ result, session.bundle? depth = some (result, session.rehearsed depth visits) := by
  obtain ⟨⟨result, next⟩, hresult⟩ := Option.isSome_iff_exists.1 h
  refine ⟨result, ?_⟩
  unfold rehearsed
  rw [hresult]
  exact bundle?_of_rehearse hresult

/-- A pass that was rehearsed with success ends with a report. -/
theorem exists_report_of_rehearse {session : Session κ π σ} {depth visits : Nat}
    (h : (session.rehearse depth visits).map (fun result => result.1.toOption.isSome) = some true) :
    ∃ report, session.bundle? depth = some (.ok report, session.rehearsed depth visits) := by
  obtain ⟨⟨result, next⟩, hrehearse, hresult⟩ := Option.map_eq_some_iff.1 h
  cases result with
  | error failure => cases hresult
  | ok report =>
    refine ⟨report, ?_⟩
    unfold rehearsed
    rw [hrehearse]
    exact bundle?_of_rehearse hrehearse

theorem tools_rehearsed (session : Session κ π σ) (depth visits : Nat) :
    (session.rehearsed depth visits).tools = session.tools := by
  unfold rehearsed
  cases hrehearse : session.rehearse depth visits with
  | none => rfl
  | some result => exact tools_of_bundle? (bundle?_of_rehearse hrehearse)

/-- A session goes on as it was rehearsed. -/
theorem Trail.rehearsed {outside : Outside σ} {session : Session κ π σ} {trail : List (Moment σ)}
    (h : session.Trail outside trail) {depth visits : Nat}
    (hrehearse : (session.rehearse depth visits).isSome = true) :
    (session.rehearsed depth visits).Trail outside (trail ++ session.passTrail depth) := by
  obtain ⟨result, hbundle⟩ := bundle?_rehearsed hrehearse
  exact h.pass hbundle

end Session

/-! ## Between two passes -/

/-- Whether the world has changed, or a change was reported. -/
def Deed.Alters : Deed → Prop
  | .edited | .noticed _ => True
  | _ => False

namespace Session

/-- The session in another world, in which changes of the given files are reported. -/
def altered (session : Session κ π σ) (world : σ) (changed : List Path) : Session κ π σ :=
  changed.foldl (fun session p => (session.queueChange p).2)
    { session with work := { session.work with world } }

theorem tools_altered (session : Session κ π σ) (world : σ) (changed : List Path) :
    (session.altered world changed).tools = session.tools := by
  have hchanges : ∀ (changed : List Path) (session : Session κ π σ),
      (changed.foldl (fun session p => (session.queueChange p).2) session).tools = session.tools := by
    intro changed
    induction changed with
    | nil => exact fun _ => rfl
    | cons p rest ih => exact fun session => ih _
  exact hchanges changed _

/-- A session goes on in another world. -/
theorem Trail.altered {outside : Outside σ} {session : Session κ π σ} {trail : List (Moment σ)}
    (h : session.Trail outside trail) {world : σ} (hturns : outside.turns session.work.world world)
    (changed : List Path) : ∃ more, (session.altered world changed).Trail outside (trail ++ more) ∧
      ∀ moment ∈ more, moment.deed.Alters := by
  have hchanges : ∀ (changed : List Path) {session : Session κ π σ} {trail : List (Moment σ)},
      session.Trail outside trail → ∃ more,
        (changed.foldl (fun session p => (session.queueChange p).2) session).Trail outside (trail ++ more) ∧
          ∀ moment ∈ more, moment.deed.Alters := by
    intro changed
    induction changed with
    | nil => exact fun h => ⟨[], by rwa [List.append_nil], fun _ hmem => by cases hmem⟩
    | cons p rest ih =>
      intro session trail h
      obtain ⟨more, hmore, halters⟩ := ih (h.change p)
      rw [List.append_assoc] at hmore
      exact ⟨_, hmore, List.forall_mem_cons.2 ⟨trivial, halters⟩⟩
  obtain ⟨more, hmore, halters⟩ := hchanges changed (h.edit hturns)
  rw [List.append_assoc] at hmore
  exact ⟨_, hmore, List.forall_mem_cons.2 ⟨trivial, halters⟩⟩

end Session
end Build
end ModuleBundler

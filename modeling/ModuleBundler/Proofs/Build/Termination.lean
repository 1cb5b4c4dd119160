import ModuleBundler.Proofs.Build.Discovery

/-!
# Passes come to an end

Loading goes from an asset to its imports and from these on, as long as it can claim
assets.  An asset that was claimed stays loaded until it is given back, and that is not
before all its imports were loaded, whatever has failed below and has become dirty again.
So the assets that are claimed on the way into the depth are all different, and the way is
no longer than there are assets.  When no changes are reported, nothing waits after a batch
that did not fail, so that there is no third one.

Main results:

- Theorem {lit}`Load.load_ends`: loading comes to an end where the number of assets is bounded.
- Theorem {lit}`Pass.drain_ends`: so does loading what waits.
- Theorem {lit}`Session.bundle?_le`: more depth than needed does not change what comes of a pass.
- Theorem {lit}`Session.History.ends`: a pass comes to an end.
-/

namespace ModuleBundler
namespace Build

variable {κ π σ : Type}

/-! ## More depth than needed -/

namespace Load

theorem each_mono {load deeper : AssetId → Work σ → Option (Outcome × Work σ)}
    (hload : ∀ {id : AssetId} {work : Work σ} {result : Outcome × Work σ},
      load id work = some result → deeper id work = some result)
    (ids : List AssetId) {work : Work σ} {result : Outcome × Work σ}
    (h : each load ids work = some result) : each deeper ids work = some result := by
  induction ids generalizing work result with
  | nil => exact h
  | cons id rest ih =>
    unfold each at h ⊢
    cases hfirst : load id work with
    | none => simp [hfirst] at h
    | some first =>
      rw [hload hfirst]
      cases hmore : each load rest first.2 with
      | none => simp [hfirst, hmore] at h
      | some more =>
        simp only [hfirst, hmore] at h
        simp only [ih hmore]
        exact h

variable {tools : Toolset κ π σ} {types : AssetTypes κ} {depth more : Nat}

theorem load_le (hle : depth ≤ more) {id : AssetId} {work : Work σ} {result : Outcome × Work σ}
    (h : load tools types depth id work = some result) : load tools types more id work = some result := by
  induction hle with
  | refl => exact h
  | step _ ih => exact load_succ tools types ih

theorem batch_le (hle : depth ≤ more) {ids : List AssetId} {work : Work σ}
    {result : Option Failure × Work σ} (h : batch tools types depth ids work = some result) :
    batch tools types more ids work = some result := by
  unfold batch at h ⊢
  cases heach : each (load tools types depth) ids work with
  | none => simp [heach] at h
  | some loaded =>
    rw [heach] at h
    rw [each_mono (load_le hle) ids heach]
    exact h

end Load

namespace Pass

variable {tools : Toolset κ π σ} {types : AssetTypes κ} {setup : Setup κ π} {depth more : Nat}

theorem drain_le (hle : depth ≤ more) {first : Bool} {batches rounds : Nat} (hbatches : batches ≤ rounds)
    {loaded : List AssetId} {work : Work σ} {result : Except Failure (List AssetId) × Work σ}
    (h : drain tools types first depth batches loaded work = some result) :
    drain tools types first more rounds loaded work = some result := by
  induction hbatches with
  | step _ ih => exact drain_succ tools types first more ih
  | refl =>
    induction batches generalizing loaded work with
    | zero => simp [drain] at h
    | succ batches ih =>
      unfold drain at h ⊢
      dsimp only at h ⊢
      by_cases hempty : (work.state.drain (!first)).1.isEmpty = true
      · rw [if_pos hempty] at h ⊢
        exact h
      · rw [if_neg hempty] at h ⊢
        revert h
        generalize (if first = true then _ else _ : Work σ) = begun
        intro h
        cases hbatch : Load.batch tools types depth (work.state.drain (!first)).1 begun with
        | none => simp [hbatch] at h
        | some outcome =>
          rw [hbatch] at h
          rw [Load.batch_le hle hbatch]
          obtain ⟨failure?, after⟩ := outcome
          cases failure? with
          | some failure => exact h
          | none => exact ih h

theorem gather_le (hle : depth ≤ more) {first : Bool} {work : Work σ} {result : Except Failure AssetId × Work σ}
    (h : gather tools types first depth work = some result) :
    gather tools types first more work = some result := by
  unfold gather at h ⊢
  cases hdrain : drain tools types first depth depth [] work with
  | none => simp [hdrain] at h
  | some drained =>
    rw [hdrain] at h
    rw [drain_le hle hle hdrain]
    exact h

theorem assemble_le (hle : depth ≤ more) {work : Work σ} {result : Except Failure AssetId × Work σ}
    (h : assemble tools setup depth work = some result) : assemble tools setup more work = some result := by
  unfold assemble at h ⊢
  split
  · rename_i hfirst
    rw [if_pos hfirst] at h
    generalize enter tools setup work = entered at h ⊢
    obtain ⟨found, entered⟩ := entered
    cases found with
    | error failure => exact h
    | ok done => exact gather_le hle h
  · rename_i hfirst
    rw [if_neg hfirst] at h
    exact gather_le hle h

theorem run_le (hle : depth ≤ more) {work : Work σ} {result : Except Failure Report × Work σ}
    (h : run tools setup depth work = some result) : run tools setup more work = some result := by
  unfold run at h ⊢
  cases hassemble : assemble tools setup depth work with
  | none => simp [hassemble] at h
  | some assembled =>
    rw [hassemble] at h
    rw [assemble_le hle hassemble]
    exact h

end Pass

/-- More depth than needed does not change what comes of a pass. -/
theorem Session.bundle?_le {session : Session κ π σ} {depth more : Nat} (hle : depth ≤ more)
    {result : Except Failure Report × Session κ π σ} (h : session.bundle? depth = some result) :
    session.bundle? more = some result := by
  unfold bundle? at h ⊢
  dsimp only at h ⊢
  cases hrun : Pass.run session.start.tools session.start.setup depth (session.start.work.tell .started) with
  | none => simp [hrun] at h
  | some ended =>
    rw [hrun] at h
    rw [Pass.run_le hle hrun]
    exact h

/-! ## The way into the depth -/

/-- No more assets are loaded than ids were given out. -/
theorem State.length_le_size {state : State} {path : List AssetId} (hnodup : path.Nodup)
    (hpath : ∀ id ∈ path, state.isLoaded id = true) : path.length ≤ state.graph.size := by
  have hindices : path.toFinset.card ≤ (Finset.range state.graph.size).card := by
    refine Finset.card_le_card_of_injOn AssetId.index (fun id hmem => ?_) fun a _ b _ hsame => ?_
    · obtain ⟨asset, hget, -⟩ := State.isLoaded_iff.1 (hpath id (List.mem_toFinset.1 hmem))
      exact Finset.mem_coe.2 (Finset.mem_range.2 (AssetGraph.lt_size_of_get? hget))
    · exact congrArg AssetId.mk hsame
  rwa [List.toFinset_card_of_nodup hnodup, Finset.card_range] at hindices

namespace Load

/-- If loading each asset comes to an end and preserves something, loading several does. -/
theorem each_ends {load : AssetId → Work σ → Option (Outcome × Work σ)} {holds : Work σ → Prop}
    (hload : ∀ id {work : Work σ}, holds work →
      ∃ outcome next, load id work = some (outcome, next) ∧ holds next)
    (ids : List AssetId) {work : Work σ} (h : holds work) :
    ∃ outcome next, each load ids work = some (outcome, next) ∧ holds next := by
  induction ids generalizing work with
  | nil => exact ⟨_, _, rfl, h⟩
  | cons id rest ih =>
    obtain ⟨first, between, hfirst, hbetween⟩ := hload id h
    obtain ⟨more, last, hmore, hlast⟩ := ih hbetween
    refine ⟨first.and more, last, ?_, hlast⟩
    unfold each
    rw [hfirst]
    dsimp only
    rw [hmore]

section

variable {tools : Toolset κ π σ} {types : AssetTypes κ} {holds : Work σ → Prop}
  (hinv : Invariant tools types fun _ _ => holds) {bound : Nat}
  (hbound : ∀ {work : Work σ}, holds work → work.state.graph.size ≤ bound)
include hinv hbound

/-- Loading comes to an end where the number of assets is bounded.  The assets on the path have been claimed
and are still loaded. -/
theorem load_ends {depth : Nat} {path : List AssetId} (id : AssetId) {work : Work σ} (h : holds work)
    (hnodup : path.Nodup) (hpath : ∀ other ∈ path, work.state.isLoaded other = true)
    (hdepth : bound < depth + path.length) :
    ∃ outcome next, load tools types depth id work = some (outcome, next) ∧ holds next := by
  suffices hends : ∃ outcome next, load tools types depth id work = some (outcome, next) by
    obtain ⟨outcome, next, hload⟩ := hends
    exact ⟨outcome, next, hload, @load_invariant _ _ _ _ _ _ hinv depth [] [] id work next outcome h hload⟩
  induction depth generalizing path id work with
  | zero =>
    have hlength := State.length_le_size hnodup hpath
    have hsize := hbound h
    omega
  | succ depth ih =>
    unfold load
    cases hclaim : claim work id with
    | none => exact ⟨_, _, rfl⟩
    | some found =>
      obtain ⟨asset, claimed⟩ := found
      obtain ⟨hbefore, hclaimed, hothers⟩ := State.isLoaded_claim (of_claim hclaim).1
      have hsame := (claimed.progress_prepare tools types id asset).isLoaded_eq
      have hnot : id ∉ path := fun hmem => by simp [hpath id hmem] at hbefore
      -- the claimed asset and those on the path are loaded when its imports are
      have hloaded : ∀ other ∈ id :: path,
          (claimed.prepare tools types id asset).2.state.isLoaded other = true := by
        refine List.forall_mem_cons.2 ⟨(hsame id).trans hclaimed, fun other hmem => ?_⟩
        have hne : other ≠ id := fun heq => hnot (heq ▸ hmem)
        exact (hsame other).trans ((hothers other hne).trans (hpath other hmem))
      dsimp only
      cases hprepare : claimed.prepare tools types id asset with
      | mk preparation prepared =>
        rw [hprepare] at hloaded
        cases preparation with
        | failed failure => exact ⟨_, _, rfl⟩
        | late failure => exact ⟨_, _, rfl⟩
        | ready children =>
          have hprepared : holds prepared :=
            @Invariant.ready _ _ _ _ _ _ hinv [] [] children id asset work claimed prepared h hclaim hprepare
          have hchild : ∀ child {work : Work σ},
              (holds work ∧ ∀ other ∈ id :: path, work.state.isLoaded other = true) →
              ∃ outcome next, load tools types depth child work = some (outcome, next) ∧
                (holds next ∧ ∀ other ∈ id :: path, next.state.isLoaded other = true) := by
            rintro child work ⟨hwork, hpath'⟩
            obtain ⟨outcome, next, hload⟩ := ih child hwork (List.nodup_cons.2 ⟨hnot, hnodup⟩) hpath'
              (by rw [List.length_cons]; omega)
            have hnext := @load_invariant _ _ _ _ _ _ hinv depth [] [] child work next outcome hwork hload
            exact ⟨outcome, next, hload, hnext, fun other hmem =>
              (tallied_traced.load hload).keeps other (hpath' other hmem)⟩
          obtain ⟨outcome, last, heach, -⟩ := each_ends hchild children ⟨hprepared, hloaded⟩
          dsimp only
          rw [heach]
          exact ⟨_, _, rfl⟩

/-- So does loading a batch. -/
theorem batch_ends {depth : Nat} (hdepth : bound < depth) (ids : List AssetId) {work : Work σ}
    (h : holds work) : ∃ failure? next, batch tools types depth ids work = some (failure?, next) := by
  obtain ⟨outcome, next, heach, -⟩ := each_ends
    (fun id {work} (hwork : holds work) => load_ends hinv hbound id hwork List.nodup_nil nofun
      (show bound < depth + 0 from hdepth)) ids h
  unfold batch
  rw [heach]
  exact ⟨_, _, rfl⟩

end
end Load

/-! ## Passes -/

namespace Pass

variable {tools : Toolset κ π σ} {types : AssetTypes κ} {now : σ → Prop} {modules : List Path}
  (hfinds : tools.Finds now modules) {base : AssetGraph}
include hfinds

/-- Taking a batch off the queue makes no assets. -/
theorem begin_finds (first : Bool) {work : Work σ} (hnow : now work.world)
    (h : AssetGraph.GrownWithin modules base work.state.graph) :
    now (begin tools first work).world ∧
      AssetGraph.GrownWithin modules base (begin tools first work).state.graph := by
  obtain ⟨hlinked, -, hdeeds⟩ := begin_spec tools first work
  refine ⟨hfinds.linked hlinked (fun moment hmem => (hdeeds moment hmem).1.assembles) hnow, ?_⟩
  have htaken : AssetGraph.GrownWithin modules base (work.state.drain (!first)).2.graph :=
    State.graph_drain (AssetGraph.GrownWithin modules base) (!first) (fun id _ h => h.update id {}) h
  unfold begin
  split
  · exact htaken
  · rw [(notices_forgetAll tools _ _).graph]
    exact htaken

/-- When no changes are reported, loading what waits comes to an end: there is no third batch. -/
theorem drain_ends {first : Bool} {depth batches : Nat} (hdepth : base.size + modules.length < depth)
    (loaded : List AssetId) {work : Work σ} (hnow : now work.world)
    (h : AssetGraph.GrownWithin modules base work.state.graph)
    (hquiet : Undisturbed (drainTrail tools types first depth (batches + 2) work)) :
    ∃ result next, drain tools types first depth (batches + 2) loaded work = some (result, next) := by
  have hbegun := begin_finds hfinds first hnow h
  obtain ⟨failure?, after, hbatch⟩ := Load.batch_ends (Load.finds_invariant hfinds types base)
    (fun h => h.2.size_le_add) hdepth (work.state.drain (!first)).1 hbegun
  unfold drain
  unfold drainTrail at hquiet
  dsimp only at hquiet ⊢
  by_cases hempty : (work.state.drain (!first)).1.isEmpty = true
  · rw [if_pos hempty]
    exact ⟨_, _, rfl⟩
  · rw [if_neg hempty] at hquiet ⊢
    obtain ⟨-, hquiet⟩ := List.forall_mem_cons.1 hquiet
    obtain ⟨hforgotten, hquiet⟩ := List.forall_mem_append.1 hquiet
    obtain ⟨hloading, -⟩ := List.forall_mem_append.1 hquiet
    rw [← begin_eq tools first work, hbatch]
    cases failure? with
    | some failure => exact ⟨_, _, rfl⟩
    | none =>
      have hqueue := queue_of_batch hbatch hforgotten hloading
      dsimp only
      unfold drain
      rw [State.drain_of_empty hqueue]
      exact ⟨_, _, rfl⟩

theorem gather_ends {first : Bool} {depth : Nat} (hdepth : base.size + modules.length + 2 ≤ depth)
    {work : Work σ} (hnow : now work.world) (h : AssetGraph.GrownWithin modules base work.state.graph)
    (hquiet : Undisturbed (gatherTrail tools types first depth work)) :
    ∃ result next, gather tools types first depth work = some (result, next) := by
  obtain ⟨batches, rfl⟩ : ∃ batches, depth = batches + 2 := ⟨depth - 2, by omega⟩
  unfold gatherTrail at hquiet
  obtain ⟨result, next, hdrain⟩ := drain_ends hfinds (by omega) [] hnow h
    (List.forall_mem_append.1 hquiet).1
  unfold gather
  rw [hdrain]
  cases result with
  | error failure => exact ⟨_, _, rfl⟩
  | ok loaded =>
    dsimp only
    split
    · exact ⟨_, _, rfl⟩
    · exact ⟨_, _, rfl⟩

/-- When no changes are reported, a pass comes to the layout, or it fails before. -/
theorem assemble_ends {setup : Setup κ π} {depth : Nat} {work : Work σ}
    (hdepth : work.state.graph.size + modules.length + 2 ≤ depth) (hnow : now work.world)
    (hindexed : work.state.graph.Indexed) (hquiet : Undisturbed (assembleTrail tools setup depth work)) :
    ∃ result next, assemble tools setup depth work = some (result, next) := by
  have hgrown : AssetGraph.GrownWithin modules work.state.graph work.state.graph := .refl hindexed
  unfold assembleTrail at hquiet
  unfold assemble
  by_cases hfirst : work.state.start.isNone = true
  · rw [if_pos hfirst] at hquiet ⊢
    obtain ⟨-, hquiet⟩ := List.forall_mem_append.1 hquiet
    obtain ⟨hentered, hgraph⟩ := enter_finds hfinds setup hnow hgrown
    generalize enter tools setup work = entered at hquiet hentered hgraph
    obtain ⟨found, entered⟩ := entered
    cases found with
    | error failure => exact ⟨_, _, rfl⟩
    | ok done => exact gather_ends hfinds hdepth hentered hgraph hquiet
  · rw [if_neg hfirst] at hquiet ⊢
    exact gather_ends hfinds hdepth hnow hgrown hquiet

end Pass

/-! ## Sessions -/

namespace Session

/-- In a project whose modules are in a list, a pass during which no changes are reported comes to an end,
whatever compiles and resolves and whatever does not.  A depth that is great enough for all modules and all
assets is great enough for it, and more depth does not change what comes of it. -/
theorem History.ends {session : Session κ π σ} (h : session.History) {now : σ → Prop} {modules : List Path}
    (hfinds : session.tools.Finds now modules) (hnow : now session.work.world) {depth : Nat}
    (hdepth : modules.length + session.work.state.graph.size + 2 ≤ depth)
    (hquiet : Pass.Undisturbed (session.passTrail depth)) :
    ∃ result session', (∀ more, depth ≤ more → session.bundle? more = some (result, session')) ∧
      (depth ≤ session.depth → session.bundle = (result, session')) := by
  obtain ⟨rest, htrail, -⟩ := session.passTrail_cases depth
  rw [htrail] at hquiet
  obtain ⟨-, hquiet⟩ := List.forall_mem_cons.1 hquiet
  have hopening : session.opening.state.graph.size + modules.length + 2 ≤ depth := by
    have hstate : session.opening.state.graph.size = session.work.state.graph.size := rfl
    omega
  obtain ⟨outcome, assembled, hassemble⟩ := Pass.assemble_ends hfinds hopening hnow h.orderly.indexed
    (List.forall_mem_append.1 hquiet).1
  have hrun : ∃ result next, Pass.run session.tools session.setup depth session.opening =
      some (result, next) := by
    unfold Pass.run
    rw [hassemble]
    cases outcome with
    | error failure => exact ⟨_, _, rfl⟩
    | ok start => exact ⟨_, _, rfl⟩
  obtain ⟨result, next, hrun⟩ := hrun
  obtain ⟨session', hbundle⟩ := bundle?_of_run hrun
  refine ⟨result, session', fun more hle => bundle?_le hle hbundle, fun hle => ?_⟩
  unfold bundle
  rw [bundle?_le hle hbundle]
  rfl

end Session

/-! ## A project with a broken file and two cycles -/

namespace Sketch

/-- Whether the files of a sketch are in a list, and nothing happens to them while they are compiled. -/
def Offers (modules : List Path) (sketch : Sketch) : Prop :=
  ∀ p file, sketch.files.get? p = some file → p.IsAmong modules ∧ file.meanwhile = []

variable {modules : List Path} {sketch : Sketch}

theorem Offers.congr {next : Sketch} (h : sketch.Offers modules) (hfiles : next.files = sketch.files) :
    next.Offers modules := by
  intro p file hget
  rw [hfiles] at hget
  exact h p file hget

/-- To compile a file only settles it. -/
theorem Offers.compile (h : sketch.Offers modules) (p : Path) : (sketch.compile p).2.Offers modules := by
  unfold Sketch.compile
  dsimp only
  split
  · exact h
  · rename_i file hget
    intro q other hother
    obtain ⟨hlisted, hmeanwhile⟩ := h p file hget
    rw [hmeanwhile] at hother
    change (sketch.files.put p file.settled).get? q = some other at hother
    cases hsame : p == q with
    | true =>
      rw [Path.Map.get?_put_self hsame] at hother
      cases hother
      obtain ⟨module, hmem, hmodule⟩ := hlisted
      exact ⟨⟨module, hmem, Path.beq_trans hmodule hsame⟩, rfl⟩
    | false =>
      rw [Path.Map.get?_put_of_ne hsame] at hother
      exact h q other hother

/-- The modules of a sketch are its files. -/
theorem finds_tools (start : Sketch) (modules : List Path) : start.tools.Finds (Offers modules) modules where
  asks {world world'} hask h := by
    cases hask with
    | resolve specifier importer => exact h
    | compile compiler p package => exact h.compile p
    | implied p kind => exact h
    | arrivals => exact h
    | retrieve p =>
      refine h.congr ?_
      change (world.retrieve p).2.files = _
      unfold Sketch.retrieve
      split <;> rfl
    | remember p unit inlined =>
      refine h.congr ?_
      change (world.remember p unit inlined).files = _
      unfold Sketch.remember
      split <;> rfl
    | forget p =>
      refine h.congr ?_
      change (world.forget p).files = _
      unfold Sketch.forget
      split <;> rfl
    | prepare p => exact h
    | update assets =>
      refine h.congr ?_
      change (world.send (.update assets)).files = _
      unfold Sketch.send
      split <;> rfl
    | alert failure =>
      refine h.congr ?_
      change (world.send (.alert failure)).files = _
      unfold Sketch.send
      split <;> rfl
  watch p world h := by
    refine h.congr ?_
    change (world.watch p).2.files = _
    unfold Sketch.watch
    split <;> rfl
  found {specifier importer world module} h hfound := by
    change (world.resolve specifier importer).1.result = _ at hfound
    unfold Sketch.resolve at hfound
    dsimp only at hfound
    split at hfound
    · cases hfound
    · split at hfound
      · rename_i file hget
        cases hfound
        exact (h _ file hget).1
      · cases hfound

end Sketch

namespace Session

/-- The files of a project.  The main file imports itself and two others, which share an import that does not
compile; one of them imports the main file as well. -/
def knotFiles : List (Path × Option SketchFile) :=
  [(⟨"/main.js"⟩, some
      { content := "main"
        dependencies := [{ specifier := "/main.js" }, { specifier := "/a.js" }, { specifier := "/b.js" }] }),
    (⟨"/a.js"⟩, some
      { content := "a", dependencies := [{ specifier := "/main.js" }, { specifier := "/x.js" }] }),
    (⟨"/b.js"⟩, some { content := "b", dependencies := [{ specifier := "/x.js" }] }),
    (⟨"/x.js"⟩, some { content := "x", fault := some "broken" })]

/-- A session for the project. -/
def knotSession : Session Unit Unit Sketch :=
  Session.new (.ofRequest ⟨"/"⟩ false {}) ⟨"/main.js"⟩ (.ofFallback ()) (.ofFallback ())
    (Sketch.edit {} knotFiles).tools (Sketch.edit {} knotFiles)

theorem offers_knotSession : knotSession.work.world.Offers (knotFiles.map Prod.fst) := by
  intro p file hget
  have hfiles : ∀ entry ∈ knotSession.work.world.files.entries,
      entry.1.IsAmong (knotFiles.map Prod.fst) ∧ entry.2.meanwhile.length = 0 := by
    decide +kernel
  obtain ⟨q, hmem, hsame⟩ := Path.Map.mem_of_find hget
  obtain ⟨⟨module, hlisted, hmodule⟩, hmeanwhile⟩ := hfiles _ hmem
  exact ⟨⟨module, hlisted, Path.beq_trans hmodule hsame⟩, List.eq_nil_of_length_eq_zero hmeanwhile⟩

/-- The first pass goes round both cycles and compiles the broken file twice. -/
theorem plan_knotSession :
    Pass.Undisturbed (knotSession.passTrail 6) ∧
      knotSession.passEvents 6 =
        [.taken true [⟨0⟩], .started ⟨0⟩, .started ⟨1⟩, .started ⟨3⟩, .started ⟨2⟩, .started ⟨3⟩] := by
  decide +kernel

/-- It comes to an end all the same. -/
theorem ends_knotSession :
    knotSession.tools.Finds (Sketch.Offers (knotFiles.map Prod.fst)) (knotFiles.map Prod.fst) ∧
      Pass.Undisturbed (knotSession.passTrail 6) ∧
        ∃ result session', (∀ more, 6 ≤ more → knotSession.bundle? more = some (result, session')) ∧
          knotSession.bundle = (result, session') := by
  have hnew : knotSession.History := .new _ _ _ _ _ _
  have hfinds := Sketch.finds_tools (Sketch.edit {} knotFiles) (knotFiles.map Prod.fst)
  obtain ⟨result, session', hmore, hbundle⟩ :=
    hnew.ends hfinds offers_knotSession (by decide +kernel) plan_knotSession.1
  exact ⟨hfinds, plan_knotSession.1, result, session', hmore, hbundle (by decide +kernel)⟩

end Session
end Build
end ModuleBundler

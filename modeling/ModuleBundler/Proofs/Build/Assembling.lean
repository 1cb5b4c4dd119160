import ModuleBundler.Proofs.Build.Trail

/-!
# The order of a pass

A pass first assembles the assets: it finds the entry and loads one batch after
another, and in the end it sends a live update.  Only then it lays out bundles,
writes them and unloads what has no home.  Tools can be asked and changes can be
reported at any time.

Main results:

- Theorem {lit}`Work.readies_prepareTrail`: while an asset is made ready, no output but its own is kept.
- Theorem {lit}`Pass.loads_drainTrail`: batches are loaded without anything else.
- Theorem {lit}`Pass.assembles_assembleTrail`: nothing is laid out before all assets are assembled.
- Theorem {lit}`Session.laidOut_passTrail`: a pass lays out what it has assembled.
- Theorem {lit}`Session.passTrail_cases`: a pass begins, assembles the assets and is concluded.
-/

namespace ModuleBundler
namespace Build

variable {κ π σ : Type}

namespace Deed

/-! ## Kinds of deeds -/

/-- Whether something holds of the deeds that can come at any time. -/
structure Ambient (fine : Deed → Prop) : Prop where
  asked : fine .asked
  noticed : ∀ p, fine (.noticed p)

/-- Whether a deed can come while an asset is made ready. -/
def Readies (id : AssetId) : Deed → Prop
  | .asked | .noticed _ => True
  | .kept other _ | .recorded other _ => other = id
  | _ => False

/-- Whether a deed can come while a batch is loaded. -/
def Fetches : Deed → Prop
  | .asked | .noticed _ | .claimed _ | .kept _ _ | .recorded _ _ | .returned _ => True
  | _ => False

/-- Whether a deed can come while one batch is loaded after another. -/
def Loads : Deed → Prop
  | .taken _ => True
  | deed => deed.Fetches

/-- Whether a deed can come until the entry is found. -/
def Enters : Deed → Prop
  | .asked | .noticed _ | .entered _ => True
  | _ => False

/-- Whether a deed can come while the assets are assembled. -/
def Assembles : Deed → Prop
  | .entered _ | .sent _ => True
  | deed => deed.Loads

/-- Whether a deed can come after all assets are assembled. -/
def Concludes : Deed → Prop
  | .asked | .noticed _ | .laidOut _ | .written _ | .finished | .closed => True
  | _ => False

theorem ambient_readies (id : AssetId) : Ambient (Readies id) :=
  ⟨trivial, fun _ => trivial⟩

theorem ambient_loads : Ambient Loads :=
  ⟨trivial, fun _ => trivial⟩

theorem ambient_enters : Ambient Enters :=
  ⟨trivial, fun _ => trivial⟩

theorem ambient_assembles : Ambient Assembles :=
  ⟨trivial, fun _ => trivial⟩

theorem ambient_concludes : Ambient Concludes :=
  ⟨trivial, fun _ => trivial⟩

theorem Readies.fetches {id : AssetId} {deed : Deed} (h : deed.Readies id) : deed.Fetches := by
  cases deed <;> first | exact h.elim | trivial

theorem Fetches.loads {deed : Deed} (h : deed.Fetches) : deed.Loads := by
  cases deed <;> first | exact h.elim | trivial

theorem Loads.assembles {deed : Deed} (h : deed.Loads) : deed.Assembles := by
  cases deed <;> first | exact h.elim | trivial

theorem Enters.assembles {deed : Deed} (h : deed.Enters) : deed.Assembles := by
  cases deed <;> first | exact h.elim | trivial

end Deed

/-! ## Making an asset ready -/

namespace Work

section

variable {fine : Deed → Prop} (hfine : Deed.Ambient fine) (tools : Toolset κ π σ)

include hfine

theorem forall_noticedTrail (changes : List Path) (work : Work σ) :
    ∀ moment ∈ noticedTrail changes work, fine moment.deed := by
  induction changes generalizing work with
  | nil => exact fun _ h => by cases h
  | cons p rest ih => exact List.forall_mem_cons.2 ⟨hfine.noticed p, ih _⟩

theorem forall_listenTrail (work : Work σ) : ∀ moment ∈ work.listenTrail tools, fine moment.deed :=
  List.forall_mem_cons.2 ⟨hfine.asked, forall_noticedTrail hfine _ _⟩

theorem forall_answeredTrail (answered : Work σ) :
    ∀ moment ∈ answered.answeredTrail tools, fine moment.deed :=
  List.forall_mem_cons.2 ⟨hfine.asked, forall_listenTrail hfine tools answered⟩

theorem forall_compileTrail (types : AssetTypes κ) (work : Work σ) (asset : Asset) :
    ∀ moment ∈ work.compileTrail tools types asset, fine moment.deed := by
  unfold compileTrail
  split
  · exact forall_answeredTrail hfine tools _
  · exact List.forall_mem_append.2
      ⟨forall_answeredTrail hfine tools _, forall_answeredTrail hfine tools _⟩

theorem forall_findEachTrail (inOrder : Bool) (importer : Path) (dependencies : List Dependency)
    (imports : Imports) (work : Work σ) :
    ∀ moment ∈ findEachTrail tools inOrder importer dependencies imports work, fine moment.deed := by
  induction dependencies generalizing imports work with
  | nil => exact fun _ h => by cases h
  | cons dep rest ih =>
    refine List.forall_mem_append.2 ⟨forall_answeredTrail hfine tools _, ?_⟩
    split
    · exact ih _ _
    · exact ih _ _
    · split
      · exact ih _ _
      · exact fun _ h => by cases h

theorem forall_rememberTrail (work : Work σ) (asset : Asset) (unit : CompiledUnit) (isNew : Bool)
    (modules : List (Dependency × Lookup.Modules.Resolved)) :
    ∀ moment ∈ work.rememberTrail tools asset unit isNew modules, fine moment.deed := by
  unfold rememberTrail
  split
  · exact forall_answeredTrail hfine tools _
  · exact fun _ h => by cases h

end

/-- While an asset is made ready, no output but its own is kept. -/
theorem readies_prepareTrail (tools : Toolset κ π σ) (types : AssetTypes κ) (work : Work σ) (id : AssetId)
    (asset : Asset) : ∀ moment ∈ work.prepareTrail tools types id asset, moment.deed.Readies id := by
  have hfine := Deed.ambient_readies id
  unfold prepareTrail
  refine List.forall_mem_append.2 ⟨forall_compileTrail hfine tools types work asset, ?_⟩
  split
  · exact fun _ h => by cases h
  · refine List.forall_mem_append.2 ⟨forall_answeredTrail hfine tools _, ?_⟩
    split
    · exact fun _ h => by cases h
    · refine List.forall_mem_cons.2 ⟨rfl,
        List.forall_mem_append.2 ⟨forall_findEachTrail hfine tools _ _ _ _ _, ?_⟩⟩
      split
      · exact List.forall_mem_append.2
          ⟨forall_rememberTrail hfine tools _ _ _ _ _, List.forall_mem_singleton.2 rfl⟩
      · exact fun _ h => by cases h

end Work

/-! ## Loading -/

namespace Load

variable (tools : Toolset κ π σ) (types : AssetTypes κ)

theorem fetches_returnTrail (ids : List AssetId) (work : Work σ) :
    ∀ moment ∈ returnTrail ids work, moment.deed.Fetches := by
  induction ids generalizing work with
  | nil => exact fun _ h => by cases h
  | cons id rest ih => exact List.forall_mem_cons.2 ⟨trivial, ih _⟩

theorem fetches_eachTrail {load : AssetId → Work σ → Option (Outcome × Work σ)}
    {trail : AssetId → Work σ → List (Moment σ)}
    (htrail : ∀ id work, ∀ moment ∈ trail id work, moment.deed.Fetches) (ids : List AssetId) (work : Work σ) :
    ∀ moment ∈ eachTrail load trail ids work, moment.deed.Fetches := by
  induction ids generalizing work with
  | nil => exact fun _ h => by cases h
  | cons id rest ih =>
    refine List.forall_mem_append.2 ⟨htrail id work, ?_⟩
    split
    · exact fun _ h => by cases h
    · exact ih _

/-- An asset is loaded without anything else. -/
theorem fetches_loadTrail (depth : Nat) (id : AssetId) (work : Work σ) :
    ∀ moment ∈ loadTrail tools types depth id work, moment.deed.Fetches := by
  induction depth generalizing id work with
  | zero => exact fun _ h => by cases h
  | succ depth ih =>
    unfold loadTrail
    split
    · exact fun _ h => by cases h
    · rename_i asset claimed hclaim
      refine List.forall_mem_cons.2 ⟨trivial, List.forall_mem_append.2 ⟨fun moment hmem => ?_, ?_⟩⟩
      · exact (claimed.readies_prepareTrail tools types id asset moment hmem).fetches
      · split
        · exact fetches_returnTrail _ _
        · exact fun _ h => by cases h
        · refine List.forall_mem_append.2 ⟨fetches_eachTrail ih _ _, ?_⟩
          split
          · exact fun _ h => by cases h
          · unfold concludeTrail
            split
            · exact fetches_returnTrail _ _
            · exact fun _ h => by cases h

theorem fetches_batchTrail (depth : Nat) (ids : List AssetId) (work : Work σ) :
    ∀ moment ∈ batchTrail tools types depth ids work, moment.deed.Fetches := by
  refine List.forall_mem_append.2 ⟨fetches_eachTrail (fetches_loadTrail tools types depth) ids work, ?_⟩
  split
  · exact fun _ h => by cases h
  · exact fetches_returnTrail _ _

end Load

/-! ## Passes -/

namespace Pass

/-- Batches are loaded without anything else. -/
theorem loads_drainTrail (tools : Toolset κ π σ) (types : AssetTypes κ) (first : Bool)
    (depth batches : Nat) (work : Work σ) :
    ∀ moment ∈ drainTrail tools types first depth batches work, moment.deed.Loads := by
  induction batches generalizing work with
  | zero => exact fun _ h => by cases h
  | succ batches ih =>
    refine List.forall_mem_cons.2 ⟨trivial, ?_⟩
    split
    · exact fun _ h => by cases h
    · refine List.forall_mem_append.2 ⟨?_, List.forall_mem_append.2 ⟨?_, ?_⟩⟩
      · split
        · exact fun _ h => by cases h
        · exact Work.forall_answeredTrail Deed.ambient_loads tools _
      · exact fun moment hmem => (Load.fetches_batchTrail tools types depth _ _ moment hmem).loads
      · split
        · exact ih _
        · exact fun _ h => by cases h

theorem assembles_gatherTrail (tools : Toolset κ π σ) (types : AssetTypes κ) (first : Bool) (depth : Nat)
    (work : Work σ) : ∀ moment ∈ gatherTrail tools types first depth work, moment.deed.Assembles := by
  refine List.forall_mem_append.2 ⟨fun moment hmem => ?_, ?_⟩
  · exact (loads_drainTrail tools types first depth depth work moment hmem).assembles
  · split
    · split
      · exact fun _ h => by cases h
      · exact List.forall_mem_cons.2 ⟨trivial, Work.forall_listenTrail Deed.ambient_assembles tools _⟩
    · exact fun _ h => by cases h

/-- The entry is found without anything else. -/
theorem enters_enterTrail (tools : Toolset κ π σ) (setup : Setup κ π) (work : Work σ) :
    ∀ moment ∈ enterTrail tools setup work, moment.deed.Enters := by
  have hfine := Deed.ambient_enters
  refine List.forall_mem_append.2 ⟨Work.forall_answeredTrail hfine tools _, ?_⟩
  split
  · exact fun _ h => by cases h
  · refine List.forall_mem_append.2 ⟨Work.forall_answeredTrail hfine tools _, ?_⟩
    split
    · exact fun _ h => by cases h
    · exact List.forall_mem_singleton.2 trivial

/-- Nothing is laid out before all assets are assembled. -/
theorem assembles_assembleTrail (tools : Toolset κ π σ) (setup : Setup κ π) (depth : Nat)
    (work : Work σ) : ∀ moment ∈ assembleTrail tools setup depth work, moment.deed.Assembles := by
  unfold assembleTrail
  split
  · refine List.forall_mem_append.2
      ⟨fun moment hmem => (enters_enterTrail tools setup work moment hmem).assembles, ?_⟩
    split
    · exact fun _ h => by cases h
    · exact assembles_gatherTrail tools _ true depth _
  · exact assembles_gatherTrail tools _ false depth _

/-- Once bundles are laid out, no asset is loaded any more. -/
theorem concludes_finishTrail (tools : Toolset κ π σ) (setup : Setup κ π) (start : AssetId)
    (work : Work σ) : ∀ moment ∈ finishTrail tools setup start work, moment.deed.Concludes := by
  refine List.forall_mem_cons.2 ⟨trivial, List.forall_mem_append.2 ⟨?_, ?_⟩⟩
  · exact List.forall_mem_cons.2 ⟨trivial, Work.forall_listenTrail Deed.ambient_concludes tools _⟩
  · split
    · exact fun _ h => by cases h
    · exact List.forall_mem_singleton.2 trivial

end Pass

/-- A pass of a session begins, assembles the assets and is concluded. -/
theorem Session.passTrail_cases (session : Session κ π σ) (depth : Nat) :
    ∃ rest, session.passTrail depth =
        ⟨.begun session.opening.state.start.isNone, session.opening⟩ ::
          (Pass.assembleTrail session.tools session.setup depth session.opening ++ rest) ∧
      ∀ moment ∈ rest, moment.deed.Concludes := by
  unfold passTrail Pass.runTrail
  rw [List.append_assoc]
  refine ⟨_, rfl, List.forall_mem_append.2 ⟨?_, ?_⟩⟩
  · split
    · exact Pass.concludes_finishTrail _ _ _ _
    · exact fun _ h => by cases h
  · split
    · exact fun _ h => by cases h
    · dsimp only
      split
      · exact List.forall_mem_cons.2 ⟨trivial, List.forall_mem_singleton.2 trivial⟩
      · exact List.forall_mem_singleton.2 trivial

namespace Pass

variable {tools : Toolset κ π σ} {setup : Setup κ π} {work : Work σ} {moment : Moment σ} {tree : BundleTree}

/-- The end of a pass lays out bundles once. -/
theorem laidOut_finishTrail {start : AssetId} (hmem : moment ∈ finishTrail tools setup start work)
    (hdeed : moment.deed = .laidOut tree) : tree = (layOut setup.outDir start work).1 := by
  have hfine : Deed.Ambient fun deed => deed ≠ .laidOut tree :=
    ⟨fun h => (by cases h), fun _ h => by cases h⟩
  rcases List.mem_cons.1 hmem with rfl | hmem
  · cases hdeed
    rfl
  · rcases List.mem_append.1 hmem with hmem | hmem
    · rcases List.mem_cons.1 hmem with rfl | hmem
      · cases hdeed
      · exact (Work.forall_listenTrail hfine tools _ moment hmem hdeed).elim
    · split at hmem
      · cases hmem
      · obtain rfl := List.mem_singleton.1 hmem
        cases hdeed

end Pass

namespace Session

variable {session : Session κ π σ} {depth : Nat} {moment : Moment σ}

/-- A pass begins and assembles the assets, then it comes to the layout of the bundles, and in the end it tells
how it has ended. -/
theorem mem_passTrail_cases (hmem : moment ∈ session.passTrail depth) :
    moment.deed = .begun session.opening.state.start.isNone ∨
      moment ∈ Pass.assembleTrail session.tools session.setup depth session.opening ∨
      (∃ start assembled, Pass.assemble session.tools session.setup depth session.opening =
          some (.ok start, assembled) ∧
        moment ∈ Pass.finishTrail session.tools session.setup start assembled) ∨
      moment.deed = .asked ∨ moment.deed = .closed := by
  rcases List.mem_cons.1 hmem with rfl | hmem
  · exact .inl rfl
  rcases List.mem_append.1 hmem with hmem | hmem
  · rcases List.mem_append.1 hmem with hmem | hmem
    · exact .inr (.inl hmem)
    · split at hmem
      · rename_i start assembled hassemble
        exact .inr (.inr (.inl ⟨start, assembled, hassemble, hmem⟩))
      · cases hmem
  · split at hmem
    · cases hmem
    · rcases List.mem_cons.1 hmem with rfl | hmem
      · exact .inr (.inr (.inr (.inl rfl)))
      · split at hmem
        · obtain rfl := List.mem_singleton.1 hmem
          exact .inr (.inr (.inr (.inr rfl)))
        · cases hmem

/-- A pass of a session lays out what it has assembled. -/
theorem laidOut_passTrail {tree : BundleTree} (hmem : moment ∈ session.passTrail depth)
    (hdeed : moment.deed = .laidOut tree) :
    ∃ start assembled, Pass.assemble session.tools session.setup depth session.opening =
        some (.ok start, assembled) ∧ tree = (Pass.layOut session.setup.outDir start assembled).1 := by
  rcases mem_passTrail_cases hmem with hbegun | hassembling | ⟨start, assembled, hassemble, hfinishing⟩ |
    hasked | hclosed
  · cases hdeed.symm.trans hbegun
  · have hassembles := Pass.assembles_assembleTrail _ _ _ _ moment hassembling
    rw [hdeed] at hassembles
    exact hassembles.elim
  · exact ⟨start, assembled, hassemble, Pass.laidOut_finishTrail hfinishing hdeed⟩
  · cases hdeed.symm.trans hasked
  · cases hdeed.symm.trans hclosed

end Session

end Build
end ModuleBundler

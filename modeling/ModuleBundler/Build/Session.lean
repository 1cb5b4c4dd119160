import ModuleBundler.Build.Debounce
import ModuleBundler.Build.Pass
import ModuleBundler.Options.Settings

/-!
# Build sessions

A session builds a project again and again, as its files change.  Asset types and
packagers can be added until the session is started, which the first pass does at
the latest.

Main results:

- Theorem {lit}`Session.addType_of_started`: a started session takes no more asset types.
- Theorem {lit}`Session.stop_work_state`: stopping does not forget anything.
-/

namespace ModuleBundler
namespace Build

/-- A build session. -/
structure Session (κ π σ : Type) where
  setup : Setup κ π
  tools : Toolset κ π σ
  work : Work σ
  /-- Whether the tools are closed after a pass if no files are watched. -/
  closesAfterPass : Bool
  started : Bool := false
  /-- Whether the latest pass has failed. -/
  errored : Bool := false
  debounce : Debounce := {}

namespace Session

variable {κ π σ : Type}

/-- A session for an entry. -/
def new (settings : Settings) (entry : Path) (types : AssetTypes κ) (packagers : Packagers π)
    (tools : Toolset κ π σ) (world : σ) : Session κ π σ where
  setup := ⟨entry, settings.outDir, types, packagers⟩
  tools := tools
  work := ⟨{}, world, []⟩
  closesAfterPass := settings.killWorkers

/-! ## Preparations -/

/-- The failure of a change that comes too late. -/
def tooLate (what : String) : Failure :=
  .config (what ++ " must be added before bundling.")

/-- Add an asset type. -/
def addType (session : Session κ π σ) (extension : String) (kind : Kind) (compiler : κ) :
    Except Failure (Session κ π σ) :=
  if session.started then .error (tooLate "Asset types")
  else
    .ok { session with
      setup := { session.setup with types := session.setup.types.register extension kind compiler } }

/-- Add a packager. -/
def addPackager (session : Session κ π σ) (kind : Kind) (packager : π) :
    Except Failure (Session κ π σ) :=
  if session.started then .error (tooLate "Packagers")
  else
    .ok { session with
      setup := { session.setup with packagers := session.setup.packagers.register kind packager } }

/-- Start the session. -/
def start (session : Session κ π σ) : Session κ π σ :=
  { session with started := true }

/-- Stop the session: nothing is watched or sent any more. -/
def stop (session : Session κ π σ) : Session κ π σ :=
  { session with
    work := { session.work with world := session.tools.close session.work.world } }

/-! ## Passes -/

/-- Tell how a pass has ended. -/
def conclude (tools : Toolset κ π σ) (result : Except Failure Report) (work : Work σ) : Work σ :=
  match result with
  | .ok report =>
    (work.tell (.completed work.state.graph.live.length (report.bundles.map BundleInfo.name))).tell
      (.ended false)
  | .error failure =>
    let work := work.tell (.failed failure)
    { work with world := tools.alert failure work.world }.tell (.ended true)

/-- Run a pass.  The result is {lit}`none` if the depth was too small. -/
def bundle? (session : Session κ π σ) (depth : Nat) :
    Option (Except Failure Report × Session κ π σ) :=
  let session := session.start
  match Pass.run session.tools session.setup depth (session.work.tell .started) with
  | none => none
  | some (result, work) =>
    let session :=
      { session with
        work := conclude session.tools result work
        errored := match result with
          | .ok _ => false
          | .error _ => true }
    some (result,
      if session.closesAfterPass && !session.tools.watches then session.stop else session)

/-- A depth that is great enough for all modules that there are and can be found. -/
def depth (session : Session κ π σ) : Nat :=
  session.tools.reach session.work.world + session.work.state.graph.size + 2

/-- Run a pass. -/
def bundle (session : Session κ π σ) : Except Failure Report × Session κ π σ :=
  (session.bundle? session.depth).getD
    (.error (.build "More modules were found than there are"), session)

/-! ## Changes -/

/-- Let the next pass take note of a change of a file. -/
def queueChange (session : Session κ π σ) (p : Path) : Bool × Session κ π σ :=
  let (accepted, work) := session.work.notify p
  (accepted, { session with work })

/-- Take note of a change of a file, and run a pass as soon as it has been quiet for long enough. -/
def change (session : Session κ π σ) (p : Path) : Session κ π σ :=
  match session.queueChange p with
  | (true, session) => { session with debounce := session.debounce.request }
  | (false, session) => session

/-- Let time pass; a pass whose time has come is run. -/
def advance (session : Session κ π σ) (milliseconds : Nat) : Session κ π σ :=
  let (due, debounce) := session.debounce.advance milliseconds
  let session := { session with debounce }
  if due then session.bundle.2 else session

/-! ### Laws -/

theorem addType_of_started {session : Session κ π σ} (h : session.started = true) (extension : String)
    (kind : Kind) (compiler : κ) :
    session.addType extension kind compiler = .error (tooLate "Asset types") := by
  simp [addType, h]

theorem addPackager_of_started {session : Session κ π σ} (h : session.started = true) (kind : Kind)
    (packager : π) : session.addPackager kind packager = .error (tooLate "Packagers") := by
  simp [addPackager, h]

theorem stop_work_state (session : Session κ π σ) : session.stop.work.state = session.work.state := rfl

theorem started_start (session : Session κ π σ) : session.start.started = true := rfl

end Session
end Build
end ModuleBundler

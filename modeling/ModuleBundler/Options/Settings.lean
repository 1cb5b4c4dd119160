import ModuleBundler.Path.Codec
import ModuleBundler.Path.Normal

/-!
# Build options

Options come as requests, in which anything may be left open, from the command
line and from configuration files.  Requests are layered, and defaults settle
what stays open.

Main results:

- Theorem {lit}`Request.or_empty`: the empty request settles nothing.
- Theorem {lit}`Settings.production_of_environment`: the environment can ask for production.
-/

namespace ModuleBundler

/-! ## Requests -/

/-- Options as they are asked for. -/
structure Request where
  outDir : Option Path := none
  publicUrl : Option String := none
  watch : Option Bool := none
  cache : Option Bool := none
  cacheDir : Option Path := none
  killWorkers : Option Bool := none
  minify : Option Bool := none
  hmr : Option Bool := none
  logLevel : Option Nat := none
  production : Option Bool := none
deriving DecidableEq, Repr, Inhabited

namespace Request

/-- The request, and where it leaves something open, the fallback. -/
def or (request fallback : Request) : Request where
  outDir := request.outDir.or fallback.outDir
  publicUrl := request.publicUrl.or fallback.publicUrl
  watch := request.watch.or fallback.watch
  cache := request.cache.or fallback.cache
  cacheDir := request.cacheDir.or fallback.cacheDir
  killWorkers := request.killWorkers.or fallback.killWorkers
  minify := request.minify.or fallback.minify
  hmr := request.hmr.or fallback.hmr
  logLevel := request.logLevel.or fallback.logLevel
  production := request.production.or fallback.production

@[simp]
theorem or_empty (request : Request) : request.or {} = request := by
  simp [or]

/-- The largest log level. -/
def maxLogLevel : Nat := 255

/-- How a request stands in JSON. -/
def record : Json.Record Request where
  title := "struct BundlerOptions"
  start := {}
  fields :=
    let flag := Json.Codec.optional .flag
    [⟨Option Path, "outDir", false, .optional Path.codec,
        Request.outDir, fun outDir request => { request with outDir }⟩,
     ⟨Option String, "publicUrl", false, .optional (.text "a string"),
        Request.publicUrl, fun publicUrl request => { request with publicUrl }⟩,
     ⟨Option Bool, "watch", false, flag,
        Request.watch, fun watch request => { request with watch }⟩,
     ⟨Option Bool, "cache", false, flag,
        Request.cache, fun cache request => { request with cache }⟩,
     ⟨Option Path, "cacheDir", false, .optional Path.codec,
        Request.cacheDir, fun cacheDir request => { request with cacheDir }⟩,
     ⟨Option Bool, "killWorkers", false, flag,
        Request.killWorkers, fun killWorkers request => { request with killWorkers }⟩,
     ⟨Option Bool, "minify", false, flag,
        Request.minify, fun minify request => { request with minify }⟩,
     ⟨Option Bool, "hmr", false, flag,
        Request.hmr, fun hmr request => { request with hmr }⟩,
     ⟨Option Nat, "logLevel", false, .optional (.natural maxLogLevel "u8"),
        Request.logLevel, fun logLevel request => { request with logLevel }⟩,
     ⟨Option Bool, "production", false, flag,
        Request.production, fun production request => { request with production }⟩]

end Request

/-! ## Settings -/

/-- Options with nothing left open. -/
structure Settings where
  outDir : Path
  publicUrl : String
  watch : Bool
  cache : Bool
  cacheDir : Path
  killWorkers : Bool
  minify : Bool
  hmr : Bool
  logLevel : Nat
  production : Bool
deriving DecidableEq, Repr, Inhabited

namespace Settings

/-- Settle a request.  {lit}`cwd` is the directory that relative paths start from and
{lit}`environment` says that the environment asks for production. -/
def ofRequest (cwd : Path) (environment : Bool) (request : Request) : Settings :=
  let production := request.production.getD false || environment
  let outDir := Path.absolute cwd (request.outDir.getD ⟨"dist"⟩)
  let watch := request.watch.getD !production
  { outDir
    publicUrl := request.publicUrl.getD ("/" ++ outDir.fileName?.getD "")
    watch
    cache := request.cache.getD true
    cacheDir := Path.absolute cwd (request.cacheDir.getD ⟨".kiln-cache"⟩)
    killWorkers := request.killWorkers.getD true
    minify := request.minify.getD production
    hmr := request.hmr.getD watch
    logLevel := request.logLevel.getD 3
    production }

/-- The settings in JSON. -/
def toValue (settings : Settings) : Json.Value :=
  .table
    [("out_dir", .text settings.outDir.text), ("public_url", .text settings.publicUrl),
      ("watch", .flag settings.watch), ("cache", .flag settings.cache),
      ("cache_dir", .text settings.cacheDir.text), ("kill_workers", .flag settings.killWorkers),
      ("minify", .flag settings.minify), ("hmr", .flag settings.hmr),
      ("log_level", .whole settings.logLevel), ("production", .flag settings.production)]

/-- Whether the value of the environment's mode variable asks for production. -/
def isProductionMode (mode : Option String) : Bool :=
  mode == some "production"

theorem production_of_environment (cwd : Path) (request : Request) :
    (ofRequest cwd true request).production = true := by
  simp [ofRequest]

end Settings
end ModuleBundler
